import AlsaqiBackend.Lib.Numerals
import AlsaqiBackend.Lib.Percent
import AlsaqiBackend.Lib.Separator

/-!
# Signed URLs of files

`SecureFileService` signs a file path, a user id and an expiry, and the middleware of `/api/v1/files`
asks it whether a request carries a signature of its own. HMAC-SHA256 is a parameter, and so are the
operations on numbers.

The signed text joins the three fields by colons, and `signature_binds_iff` says that a signature is
bound to its fields exactly when the path and the user id have none. The service signs the path as it is
given and the middleware verifies the one of the URL, which has a slash before it and is still encoded:
by `middleware_never_accepts` these are never the same text.
-/

namespace AlsaqiBackend.Files

open Lib

/-! ## Signatures -/

/-- What the service asks of the numbers of JavaScript. -/
structure JsNumbers (ν : Type) where
  ofInt : ℤ → ν
  add : ν → ν → ν
  min : ν → ν → ν
  max : ν → ν → ν
  lt : ν → ν → Bool
  /-- `String(n)`. -/
  text : ν → List Char
  /-- `parseInt(text, 10)`; `none` stands for `NaN`. -/
  parseInt : List Char → Option ν
  /-- No ampersand is written for a number. -/
  notMem_text : ∀ n, '&' ∉ text n

/-- The integers among them. -/
def integers : JsNumbers ℤ where
  ofInt := id
  add := (· + ·)
  min := min
  max := max
  lt m n := m < n
  text := intText
  parseInt := parseInt10
  notMem_text := notMem_intText (by decide) (by decide)

/-- `MIN_TTL` and `DEFAULT_TTL`, in seconds. -/
def MIN_TTL : ℤ := 5 * 60

def DEFAULT_TTL : ℤ := 60 * 60

structure SignedUrlVerificationResult where
  valid : Bool
  expired : Option Bool
  reason : Option String
  deriving DecidableEq, Repr

variable {ν : Type} (N : JsNumbers ν) (hmac : String → List Char → List UInt8)

/-- `requireSecret`. -/
def requireSecret : Option String → Except String String
  | some secret => .ok secret
  | none => .error ("FILE_ACCESS_SECRET is not configured. The Secure File Service cannot sign or " ++
      "verify file-access URLs.")

/-- The text that is signed. -/
def payload (filePath userId : List Char) (expires : ν) : List Char :=
  filePath ++ ':' :: (userId ++ ':' :: N.text expires)

/-- `computeSignature`. -/
def computeSignature (secret : Option String) (filePath userId : List Char) (expires : ν) :
    Except String (List Char) := do
  let secret ← requireSecret secret
  return toHex ((hmac secret (payload N filePath userId expires)).map UInt8.toNat)

/-- `clampTtl`, with the configured maximum. -/
def clampTtl (maxTtl : ℤ) (ttl : Option ν) : ν :=
  let effectiveTtl := ttl.getD (N.ofInt DEFAULT_TTL)
  N.min (N.max effectiveTtl (N.ofInt MIN_TTL)) (N.ofInt maxTtl)

/-- The expiry of a URL that is signed at a time, in seconds. -/
def expiryOf (maxTtl now : ℤ) (ttl : Option ν) : ν := N.add (N.ofInt now) (clampTtl N maxTtl ttl)

/-- The path under which the files are served. -/
def filesMount : List Char := "/api/v1/files".toList

/-- The query of a signed URL. -/
def signedQuery (expires userId sig : List Char) : List Char :=
  ("expires".toList ++ '=' :: expires) ++ '&' :: (("userId".toList ++ '=' :: userId) ++
    '&' :: ("sig".toList ++ '=' :: sig))

/-- `generateSignedUrl`. -/
def generateSignedUrl (secret : Option String) (maxTtl now : ℤ) (filePath userId : List Char)
    (ttl : Option ν) : Except String (List Char) := do
  let expires := expiryOf N maxTtl now ttl
  let signature ← computeSignature N hmac secret filePath userId expires
  return filesMount ++ '/' :: (encodeURIComponent filePath ++ '?' ::
    signedQuery (N.text expires) (encodeURIComponent userId) signature)

/-- `verifySignedUrl`, at a time in seconds. -/
def verifySignedUrl (secret : Option String) (now : ℤ) (filePath userId : List Char) (expires : ν)
    (signature : List Char) : Except String SignedUrlVerificationResult := do
  if N.lt expires (N.ofInt now) then return ⟨false, some true, some "URL has expired"⟩
  let expectedSignature ← computeSignature N hmac secret filePath userId expires
  let sigBuffer := fromHex signature
  let expectedBuffer := fromHex expectedSignature
  if sigBuffer.length ≠ expectedBuffer.length then
    return ⟨false, some false, some "Invalid signature"⟩
  if sigBuffer ≠ expectedBuffer then return ⟨false, some false, some "Invalid signature"⟩
  return ⟨true, none, none⟩

variable {N hmac}

/-- A signature, and the verification of one, under a secret. -/
theorem computeSignature_some (secret : String) (filePath userId : List Char) (expires : ν) :
    computeSignature N hmac (some secret) filePath userId expires =
      .ok (toHex ((hmac secret (payload N filePath userId expires)).map UInt8.toNat)) := rfl

/-- The URL of a file, under a secret. -/
theorem generateSignedUrl_some (secret : String) (maxTtl now : ℤ) (filePath userId : List Char)
    (ttl : Option ν) :
    generateSignedUrl N hmac (some secret) maxTtl now filePath userId ttl =
      .ok (filesMount ++ '/' :: (encodeURIComponent filePath ++ '?' ::
        signedQuery (N.text (expiryOf N maxTtl now ttl)) (encodeURIComponent userId)
          (toHex ((hmac secret (payload N filePath userId (expiryOf N maxTtl now ttl))).map
            UInt8.toNat)))) := rfl

/-- Digests are read back from their digits. -/
theorem fromHex_digest (digest : List UInt8) :
    fromHex (toHex (digest.map UInt8.toNat)) = digest.map UInt8.toNat := by
  apply fromHex_toHex
  intro b hb
  obtain ⟨byte, -, rfl⟩ := List.mem_map.1 hb
  exact byte.toNat_lt

/-- The result for a signature of another text or the same one. -/
theorem verifySignedUrl_eq (hinj : ∀ secret, Function.Injective (hmac secret)) (secret : String)
    (now : ℤ) (filePath userId filePath' userId' : List Char) (expires expires' : ν) :
    verifySignedUrl N hmac (some secret) now filePath' userId' expires'
        (toHex ((hmac secret (payload N filePath userId expires)).map UInt8.toNat)) =
      .ok (if N.lt expires' (N.ofInt now) then ⟨false, some true, some "URL has expired"⟩
        else if payload N filePath userId expires = payload N filePath' userId' expires' then
          ⟨true, none, none⟩
        else ⟨false, some false, some "Invalid signature"⟩) := by
  unfold verifySignedUrl
  rw [computeSignature_some]
  by_cases hexpired : N.lt expires' (N.ofInt now) = true
  · rw [if_pos hexpired, if_pos hexpired]
    rfl
  · rw [if_neg hexpired, if_neg hexpired]
    show (if (fromHex _).length ≠ (fromHex _).length then _ else _) = _
    rw [fromHex_digest, fromHex_digest]
    by_cases hpayload : payload N filePath userId expires = payload N filePath' userId' expires'
    · rw [if_pos hpayload, hpayload, if_neg (not_not.2 rfl), if_neg (not_not.2 rfl)]
      rfl
    · have hdigest : (hmac secret (payload N filePath userId expires)).map UInt8.toNat ≠
          (hmac secret (payload N filePath' userId' expires')).map UInt8.toNat := fun heq =>
        hpayload (hinj secret (List.map_injective_iff.2 (fun _ _ h => UInt8.toNat_inj.1 h) heq))
      rw [if_neg hpayload, if_pos hdigest]
      split_ifs
      · rfl
      · rfl

/-- The verification succeeds with a valid result. -/
def Accepts (result : Except String SignedUrlVerificationResult) : Prop :=
  ∃ r, result = .ok r ∧ r.valid = true

/-- A signature is accepted for fields that give the same text, up to their expiry. -/
theorem accepts_iff (hinj : ∀ secret, Function.Injective (hmac secret)) (secret : String)
    (now : ℤ) (filePath userId filePath' userId' : List Char) (expires expires' : ν) :
    Accepts (verifySignedUrl N hmac (some secret) now filePath' userId' expires'
        (toHex ((hmac secret (payload N filePath userId expires)).map UInt8.toNat))) ↔
      N.lt expires' (N.ofInt now) = false ∧
        payload N filePath userId expires = payload N filePath' userId' expires' := by
  rw [verifySignedUrl_eq hinj]
  unfold Accepts
  simp only [Except.ok.injEq, exists_eq_left']
  split_ifs with hexpired hpayload
  · simp [hexpired]
  · simp [hexpired, hpayload]
  · simp [hpayload]

/-! ## What a signature is bound to -/

/-- The signature of the fields is accepted for no other ones, and not after the expiry. -/
def Binds (hmac : String → List Char → List UInt8) (secret : String) (filePath userId : List Char)
    (expires : ℤ) : Prop :=
  ∀ (filePath' userId' : List Char) (expires' now : ℤ) (signature : List Char),
    computeSignature integers hmac (some secret) filePath userId expires = .ok signature →
      Accepts (verifySignedUrl integers hmac (some secret) now filePath' userId' expires' signature) →
        filePath' = filePath ∧ userId' = userId ∧ expires' = expires ∧ now ≤ expires

/-- There is no colon in the text of an integer. -/
theorem colon_notMem_text (n : ℤ) : ':' ∉ integers.text n :=
  notMem_intText (by decide) (by decide) n

/-- Fields without colons are determined by the signed text. -/
theorem payload_inj {f u f' u' : List Char} {e e' : ℤ} (hf : ':' ∉ f) (hu : ':' ∉ u)
    (h : payload integers f u e = payload integers f' u' e') : f' = f ∧ u' = u ∧ e' = e := by
  unfold payload at h
  -- The last colon of each text stands before its expiry.
  have hlast : (f ++ ':' :: u) ++ ':' :: integers.text e =
      (f' ++ ':' :: u') ++ ':' :: integers.text e' := by
    rw [List.append_assoc, List.append_assoc]
    exact h
  obtain ⟨hfields, htext⟩ := (cut_at_last (colon_notMem_text e) (colon_notMem_text e')).1 hlast
  -- So the other text has one colon before it too.
  have hcount := congrArg (List.count ':') hfields
  rw [List.count_append, List.count_append, List.count_cons_self, List.count_cons_self,
    List.count_eq_zero.2 hf, List.count_eq_zero.2 hu] at hcount
  have hf' : ':' ∉ f' := List.count_eq_zero.1 (by omega)
  obtain ⟨hpath, huser⟩ := (cut_at_first hf hf').1 hfields
  exact ⟨hpath.symm, huser.symm, (intText_inj htext).symm⟩

/-- A signature is bound to its three fields exactly when there is no colon in the path and none in the
user id: a colon can go from one of the two to the other. -/
theorem signature_binds_iff (hmac : String → List Char → List UInt8)
    (hinj : ∀ secret, Function.Injective (hmac secret)) (secret : String)
    (filePath userId : List Char) (expires : ℤ) :
    Binds hmac secret filePath userId expires ↔ ':' ∉ filePath ∧ ':' ∉ userId := by
  have haccepts : ∀ f' u', payload integers filePath userId expires = payload integers f' u' expires →
      Accepts (verifySignedUrl integers hmac (some secret) expires f' u' expires
        (toHex ((hmac secret (payload integers filePath userId expires)).map UInt8.toNat))) :=
    fun f' u' hpayload =>
      (accepts_iff hinj secret expires _ _ _ _ _ _).2 ⟨decide_eq_false (lt_irrefl _), hpayload⟩
  constructor
  · intro hbinds
    constructor
    · -- The path ends at its colon, and the user id begins after it.
      intro hmem
      obtain ⟨a, b, hab⟩ := List.append_of_mem hmem
      have hpayload : payload integers filePath userId expires =
          payload integers a (b ++ ':' :: userId) expires := by
        simp [payload, hab]
      have hpath := (hbinds _ _ _ _ _ rfl (haccepts _ _ hpayload)).1
      have hlength := congrArg List.length (hpath.trans hab)
      rw [List.length_append, List.length_cons] at hlength
      omega
    · -- The user id begins after its colon, and the path ends at it.
      intro hmem
      obtain ⟨a, b, hab⟩ := List.append_of_mem hmem
      have hpayload : payload integers filePath userId expires =
          payload integers (filePath ++ ':' :: a) b expires := by
        simp [payload, hab]
      have hpath := (hbinds _ _ _ _ _ rfl (haccepts _ _ hpayload)).1
      have hlength := congrArg List.length hpath
      rw [List.length_append, List.length_cons] at hlength
      omega
  · rintro ⟨hf, hu⟩ f' u' e' now signature hsignature haccepted
    obtain rfl := Except.ok.inj hsignature
    obtain ⟨hnow, hpayload⟩ := (accepts_iff hinj secret now _ _ _ _ _ _).1 haccepted
    obtain ⟨rfl, rfl, rfl⟩ := payload_inj hf hu hpayload
    exact ⟨rfl, rfl, rfl, not_lt.1 (of_decide_eq_false hnow)⟩

/-- A digest that keeps the text, after a byte of its own. -/
def textDigest (_secret : String) (text : List Char) : List UInt8 :=
  0 :: (encodeUtf8 text).map UInt8.ofNat

theorem textDigest_injective (secret : String) : Function.Injective (textDigest secret) := by
  have hbytes : ∀ text, (((encodeUtf8 text).map UInt8.ofNat).map UInt8.toNat) = encodeUtf8 text := by
    intro text
    rw [List.map_map]
    have hbyte : ∀ b ∈ encodeUtf8 text, (UInt8.toNat ∘ UInt8.ofNat) b = b := fun b hb =>
      UInt8.toNat_ofNat_of_lt (encodeUtf8_lt hb)
    exact (List.map_congr_left hbyte).trans (List.map_id _)
  intro text text' h
  have hencoded : encodeUtf8 text = encodeUtf8 text' := by
    rw [← hbytes text, ← hbytes text', (List.cons.inj h).2]
  calc text = decodeUtf8 (encodeUtf8 text) := (decodeUtf8_encodeUtf8 text).symm
    _ = decodeUtf8 (encodeUtf8 text') := by rw [hencoded]
    _ = text' := decodeUtf8_encodeUtf8 text'

/-- A path and a user id without colons. -/
theorem signature_binds_report : Binds textDigest "secret" "report.pdf".toList "u1".toList 1700000900 :=
  (signature_binds_iff textDigest textDigest_injective "secret" _ _ _).2 ⟨by decide, by decide⟩

/-- The signature of the path `a:b` for the user `c` is accepted for the path `a` and the user `b:c`. -/
theorem signature_not_bound : ¬∀ (secret : String) (filePath userId : List Char) (expires : ℤ),
    Binds textDigest secret filePath userId expires := by
  intro hall
  have hpath := (hall "secret" "a:b".toList "c".toList 1700000900 "a".toList "b:c".toList 1700000900
    1700000000 _ rfl ((accepts_iff textDigest_injective _ _ _ _ _ _ _ _).2 ⟨rfl, rfl⟩)).1
  exact absurd hpath (by decide)

/-! ## Requests -/

/-- What Express makes of a URL: the path below the mount, which is still encoded, and the parameters of
the query. -/
structure SignedRequest where
  path : List Char
  query : List (List Char × List Char)

/-- A name or value of a query, decoded; one that cannot be decoded is left as it is. -/
def decodeQuery (text : List Char) : List Char :=
  let spaced := text.map fun c => if c = '+' then ' ' else c
  (decodeURIComponent spaced).getD spaced

/-- A name and its value. -/
def parseParameter (parameter : List Char) : List Char × List Char :=
  let (name, value) := cutFirst '=' parameter
  (decodeQuery name, decodeQuery value)

/-- The parameters of a query. -/
def parseQuery (query : List Char) : List (List Char × List Char) :=
  (query.splitOn '&').map parseParameter

/-- The request of a URL below a mount; there is none for another URL. -/
def mountedRequest (mount url : List Char) : Option SignedRequest :=
  if mount.isPrefixOf url then
    let (path, query) := cutFirst '?' (url.drop mount.length)
    some ⟨if path = [] then ['/'] else path, parseQuery query⟩
  else none

variable (N hmac)

/-- The call of `verifySignedUrl` by `createSecureFileMiddleware`; `none` when it makes none. -/
def signedUrlResult (secret : Option String) (now : ℤ) (req : SignedRequest) :
    Option (Except String SignedUrlVerificationResult) :=
  match req.query.lookup "expires".toList, req.query.lookup "userId".toList,
    req.query.lookup "sig".toList with
  | some expires, some userId, some sig =>
    if expires ≠ [] ∧ userId ≠ [] ∧ sig ≠ [] then
      (N.parseInt expires).map fun expiresNum =>
        verifySignedUrl N hmac secret now req.path userId expiresNum sig
    else none
  | _, _, _ => none

/-- The same for a URL. -/
def middlewareResult (secret : Option String) (now : ℤ) (url : List Char) :
    Option (Except String SignedUrlVerificationResult) :=
  (mountedRequest filesMount url).bind (signedUrlResult N hmac secret now)

variable {N hmac}

/-- A value without plus signs is what the component stands for. -/
theorem decodeQuery_of_notMem {text value : List Char} (hplus : '+' ∉ text)
    (h : decodeURIComponent text = some value) : decodeQuery text = value := by
  have hspaced : (text.map fun c => if c = '+' then ' ' else c) = text := by
    refine (List.map_congr_left fun c hc => ?_).trans (List.map_id text)
    have hne : c ≠ '+' := fun heq => hplus (heq ▸ hc)
    exact if_neg hne
  unfold decodeQuery
  simp only [hspaced, h, Option.getD_some]

/-- A parameter with a plain name. -/
theorem parseParameter_append {name : List Char} (h : ∀ c ∈ ['=', '%', '+'], c ∉ name)
    (value : List Char) : parseParameter (name ++ '=' :: value) = (name, decodeQuery value) := by
  have hname := decodeQuery_of_notMem (h '+' (by decide))
    (decodeURIComponent_of_notMem (h '%' (by decide)))
  unfold parseParameter
  rw [cutFirst_append (h '=' (by decide))]
  simp only [hname]

/-- The parameters of a signed URL, read back. -/
theorem parseQuery_signedQuery {expires : List Char} (hexpires : '&' ∉ expires)
    (userId : List Char) (digest : List ℕ) :
    parseQuery (signedQuery expires (encodeURIComponent userId) (toHex digest)) =
      [("expires".toList, decodeQuery expires), ("userId".toList, userId),
        ("sig".toList, toHex digest)] := by
  have hsig : ∀ c ∈ ['&', '%', '+'], c ∉ toHex digest := by
    simp only [List.forall_mem_cons, List.not_mem_nil, IsEmpty.forall_iff, implies_true, and_true]
    exact ⟨notMem_toHex (by decide) (by decide) digest, notMem_toHex (by decide) (by decide) digest,
      notMem_toHex (by decide) (by decide) digest⟩
  have huser : ∀ c ∈ ['&', '+'], c ∉ encodeURIComponent userId := by
    simp only [List.forall_mem_cons, List.not_mem_nil, IsEmpty.forall_iff, implies_true, and_true]
    exact ⟨notMem_encodeURIComponent (by decide) (by decide) userId,
      notMem_encodeURIComponent (by decide) (by decide) userId⟩
  have hparameter : ∀ name ∈ ["expires".toList, "userId".toList, "sig".toList], ∀ value,
      '&' ∉ value → '&' ∉ name ++ '=' :: value := by
    intro name hname value hvalue
    have hplain : ∀ name ∈ ["expires".toList, "userId".toList, "sig".toList], '&' ∉ name := by decide
    rw [List.mem_append, List.mem_cons, not_or, not_or]
    exact ⟨hplain name hname, by decide, hvalue⟩
  have hnames : ∀ name ∈ ["expires".toList, "userId".toList, "sig".toList],
      ∀ c ∈ ['=', '%', '+'], c ∉ name := by
    simp only [List.forall_mem_cons, List.not_mem_nil, IsEmpty.forall_iff, implies_true, and_true]
    decide
  have huserValue := decodeQuery_of_notMem (huser '+' (by decide))
    (decodeURIComponent_encodeURIComponent userId)
  have hsigValue := decodeQuery_of_notMem (hsig '+' (by decide))
    (decodeURIComponent_of_notMem (hsig '%' (by decide)))
  unfold parseQuery signedQuery
  rw [List.splitOn_append_cons_self_of_not_mem (hparameter _ (by decide) _ hexpires),
    List.splitOn_append_cons_self_of_not_mem (hparameter _ (by decide) _ (huser '&' (by decide))),
    List.splitOn_eq_singleton (hparameter _ (by decide) _ (hsig '&' (by decide)))]
  simp only [List.map_cons, List.map_nil]
  rw [parseParameter_append (hnames _ (by decide)), parseParameter_append (hnames _ (by decide)),
    parseParameter_append (hnames _ (by decide)), huserValue, hsigValue]

/-- What the middleware gets of a URL of the service. -/
theorem mountedRequest_signed {expires : List Char} (hexpires : '&' ∉ expires)
    (filePath userId : List Char) (digest : List ℕ) :
    mountedRequest filesMount (filesMount ++ '/' :: (encodeURIComponent filePath ++ '?' ::
        signedQuery expires (encodeURIComponent userId) (toHex digest))) =
      some ⟨'/' :: encodeURIComponent filePath, [("expires".toList, decodeQuery expires),
        ("userId".toList, userId), ("sig".toList, toHex digest)]⟩ := by
  have hquestion : '?' ∉ '/' :: encodeURIComponent filePath := by
    rw [List.mem_cons, not_or]
    exact ⟨by decide, notMem_encodeURIComponent (by decide) (by decide) filePath⟩
  unfold mountedRequest
  rw [if_pos (List.isPrefixOf_iff_prefix.2 (List.prefix_append _ _)), List.drop_left, ← List.cons_append,
    cutFirst_append hquestion]
  simp only [parseQuery_signedQuery hexpires, reduceCtorEq, if_false]

/-- The call for parameters of a signed URL. -/
theorem signedUrlResult_signed (secret : Option String) (now : ℤ)
    (path expires userId sig : List Char) :
    signedUrlResult N hmac secret now ⟨path, [("expires".toList, expires), ("userId".toList, userId),
        ("sig".toList, sig)]⟩ =
      if expires ≠ [] ∧ userId ≠ [] ∧ sig ≠ [] then
        (N.parseInt expires).map fun expiresNum =>
          verifySignedUrl N hmac secret now path userId expiresNum sig
      else none := rfl

/-- The text that the middleware verifies is not the one that is signed: where the path ends in the
signed text there is a colon, and the encoded path goes on and has none. -/
theorem payload_ne (filePath userId userId' : List Char) (expires expires' : ν) :
    payload N filePath userId expires ≠
      payload N ('/' :: encodeURIComponent filePath) userId' expires' := by
  intro heq
  have hlength := length_le_encodeURIComponent filePath
  have htake := congrArg (List.take (filePath.length + 1)) heq
  have hleft : (payload N filePath userId expires).take (filePath.length + 1) = filePath ++ [':'] := by
    unfold payload
    rw [List.take_length_add_append]
    rfl
  have hright : (payload N ('/' :: encodeURIComponent filePath) userId' expires').take
      (filePath.length + 1) = ('/' :: encodeURIComponent filePath).take (filePath.length + 1) := by
    unfold payload
    exact List.take_append_of_le_length (by rw [List.length_cons]; omega)
  rw [hleft, hright] at htake
  have hcolon : ':' ∈ '/' :: encodeURIComponent filePath := by
    refine List.mem_of_mem_take (i := filePath.length + 1) ?_
    rw [← htake]
    exact List.mem_append_right _ List.mem_cons_self
  rcases List.mem_cons.1 hcolon with hslash | hmem
  · exact absurd hslash (by decide)
  · exact notMem_encodeURIComponent (by decide) (by decide) filePath hmem

/-- Up to the expiry of a URL the middleware makes its call and is told that the signature is invalid. -/
theorem middlewareResult_eq (hinj : ∀ secret, Function.Injective (hmac secret))
    (hdigest : ∀ secret text, hmac secret text ≠ []) (secret : String) {maxTtl issuedAt now : ℤ}
    {filePath userId : List Char} {ttl : Option ℤ} {expires : ℕ}
    (hexpires : expiryOf integers maxTtl issuedAt ttl = expires) (huser : userId ≠ [])
    (hnow : now ≤ expires) {url : List Char}
    (hurl : generateSignedUrl integers hmac (some secret) maxTtl issuedAt filePath userId ttl = .ok url) :
    middlewareResult integers hmac (some secret) now url =
      some (.ok ⟨false, some false, some "Invalid signature"⟩) := by
  obtain rfl := Except.ok.inj hurl
  have htext : ∀ c ∈ ['&', '%', '+'], c ∉ integers.text (expires : ℤ) := by
    simp only [List.forall_mem_cons, List.not_mem_nil, IsEmpty.forall_iff, implies_true, and_true]
    exact ⟨notMem_intText rfl (by decide) expires, notMem_intText rfl (by decide) expires,
      notMem_intText rfl (by decide) expires⟩
  have hvalue := decodeQuery_of_notMem (htext '+' (by decide))
    (decodeURIComponent_of_notMem (htext '%' (by decide)))
  have hnonempty : integers.text (expires : ℤ) ≠ [] := padded_ne_nil
  have hsig : ∀ text, toHex ((hmac secret text).map UInt8.toNat) ≠ [] := by
    intro text hnil
    have hbytes := congrArg fromHex hnil
    rw [fromHex_digest] at hbytes
    exact hdigest secret text (List.map_eq_nil_iff.1 hbytes)
  have hlive : integers.lt (expires : ℤ) (integers.ofInt now) = false :=
    decide_eq_false (not_lt.2 hnow)
  unfold middlewareResult
  rw [hexpires, mountedRequest_signed (htext '&' (by decide)), Option.bind_some,
    signedUrlResult_signed, hvalue, if_pos ⟨hnonempty, huser, hsig _⟩]
  have hparse : integers.parseInt (integers.text (expires : ℤ)) = some (expires : ℤ) :=
    parseInt10_intText expires
  rw [hparse, Option.map_some, verifySignedUrl_eq hinj, if_neg (Bool.eq_false_iff.1 hlive),
    if_neg (payload_ne _ _ _ _ _)]

/-- The signature of no URL of the service is accepted by the middleware, whenever it is requested. -/
theorem middleware_never_accepts (N : JsNumbers ν) (hmac : String → List Char → List UInt8)
    (hinj : ∀ secret, Function.Injective (hmac secret)) (secret : Option String) (maxTtl issuedAt : ℤ)
    (filePath userId : List Char) (ttl : Option ν) {url : List Char}
    (hurl : generateSignedUrl N hmac secret maxTtl issuedAt filePath userId ttl = .ok url) (now : ℤ)
    (result : Except String SignedUrlVerificationResult)
    (hresult : middlewareResult N hmac secret now url = some result) : ¬ Accepts result := by
  cases secret with
  | none => cases hurl
  | some secret =>
    obtain rfl := Except.ok.inj hurl
    unfold middlewareResult at hresult
    rw [mountedRequest_signed (N.notMem_text _), Option.bind_some, signedUrlResult_signed] at hresult
    split_ifs at hresult
    obtain ⟨expiresNum, -, rfl⟩ := Option.map_eq_some_iff.1 hresult
    rw [accepts_iff hinj]
    rintro ⟨-, hpayload⟩
    exact payload_ne _ _ _ _ _ hpayload

/-- A URL of `report.pdf` for the user `u1`, requested a minute after it is signed. -/
theorem middleware_never_accepts_report : ∃ url,
    generateSignedUrl integers textDigest (some "secret") 900 1700000000 "report.pdf".toList
      "u1".toList none = .ok url ∧
    ∀ result, middlewareResult integers textDigest (some "secret") 1700000060 url = some result →
      ¬ Accepts result :=
  ⟨_, generateSignedUrl_some _ _ _ _ _ _,
    middleware_never_accepts integers textDigest textDigest_injective (some "secret") 900 1700000000
      "report.pdf".toList "u1".toList none (generateSignedUrl_some _ _ _ _ _ _) 1700000060⟩

/-- That URL is rejected although it has not expired. -/
theorem unexpired_url_rejected : ¬∀ (secret : Option String) (maxTtl issuedAt now : ℤ)
    (filePath userId : List Char) (ttl : Option ℤ) (url : List Char),
    generateSignedUrl integers textDigest secret maxTtl issuedAt filePath userId ttl = .ok url →
      now ≤ expiryOf integers maxTtl issuedAt ttl →
        ∃ result, middlewareResult integers textDigest secret now url = some result ∧
          Accepts result := by
  intro hall
  have hurl : generateSignedUrl integers textDigest (some "secret") 900 1700000000 "report.pdf".toList
      "u1".toList none = .ok _ := generateSignedUrl_some _ _ _ _ _ _
  have hexpires : expiryOf integers 900 1700000000 none = (1700000900 : ℕ) := by decide
  obtain ⟨result, hresult, r, hr, hvalid⟩ := hall (some "secret") 900 1700000000 1700000060
    "report.pdf".toList "u1".toList none _ hurl (by rw [hexpires]; decide)
  have hrejected := middlewareResult_eq textDigest_injective (fun _ _ => List.cons_ne_nil _ _) "secret"
    hexpires (by decide) (by decide : (1700000060 : ℤ) ≤ (1700000900 : ℕ)) hurl
  rw [hresult, Option.some.injEq, hr, Except.ok.injEq] at hrejected
  rw [hrejected] at hvalid
  exact absurd hvalid (by decide)

end AlsaqiBackend.Files
