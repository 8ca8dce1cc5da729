import AlsaqiBackend.Lib.Percent

/-!
# Texts in units of UTF-16

A text of JavaScript is a list of units of UTF-16, in which a surrogate can stand without the other half of its
pair. `length` counts the units. `Buffer.from(text, 'utf-8')` has the bytes of the text in which each such
surrogate has become a replacement character (`toWellFormed`), so that two texts can have the same bytes, and
texts of one length can have bytes of two lengths.

`decodeUri` is `decodeURIComponent` on units. It leaves a text without percent signs as it is and makes every
other text shorter, and it can be run on the parts between separators one by one (`decodeUri_append_cons`).
-/

namespace AlsaqiBackend.Lib

/-! ## Characters in units -/

/-- The unit of a character below `0x10000`. -/
def unit (c : Char) : UInt16 := c.toNat.toUInt16

/-- The units of a number: one, or the two surrogates of a pair. -/
def codeUnits (code : ℕ) : List UInt16 :=
  if code < 0x10000 then [code.toUInt16]
  else [(0xD800 + (code - 0x10000) / 0x400).toUInt16, (0xDC00 + (code - 0x10000) % 0x400).toUInt16]

def units (text : String) : List UInt16 := text.toList.flatMap fun c => codeUnits c.toNat

def isHighSurrogate (u : UInt16) : Bool := 0xD800 ≤ u.toNat && u.toNat < 0xDC00

def isLowSurrogate (u : UInt16) : Bool := 0xDC00 ≤ u.toNat && u.toNat < 0xE000

/-- The character of a unit that is in no pair. -/
def singleChar (u : UInt16) : Char :=
  if isHighSurrogate u || isLowSurrogate u then replacementChar else Char.ofNat u.toNat

/-- The character of a pair of surrogates. -/
def pairChar (high low : UInt16) : Char :=
  Char.ofNat (0x10000 + 0x400 * (high.toNat - 0xD800) + (low.toNat - 0xDC00))

/-- `text.toWellFormed()`: a surrogate that stands alone becomes a replacement character. -/
def toWellFormed : List UInt16 → List Char
  | [] => []
  | [u] => [singleChar u]
  | high :: low :: rest =>
    if isHighSurrogate high && isLowSurrogate low then pairChar high low :: toWellFormed rest
    else singleChar high :: toWellFormed (low :: rest)

/-- `Buffer.from(text, 'utf-8')`. -/
def bufferFrom (text : List UInt16) : List ℕ := encodeUtf8 (toWellFormed text)

/-- Two texts have the same bytes when they are the same up to surrogates that stand alone. -/
theorem bufferFrom_inj {a b : List UInt16} : bufferFrom a = bufferFrom b ↔ toWellFormed a = toWellFormed b := by
  constructor
  · intro h
    have hdecoded := congrArg decodeUtf8 h
    unfold bufferFrom at hdecoded
    rwa [decodeUtf8_encodeUtf8, decodeUtf8_encodeUtf8] at hdecoded
  · intro h
    unfold bufferFrom
    rw [h]

/-! ## Percent escapes -/

/-- The digit that a unit is. -/
def unitHex (u : UInt16) : Option ℕ := hexValue (Char.ofNat u.toNat)

/-- The byte of two units. -/
def unitPair (a b : UInt16) : Option ℕ := hexPair (Char.ofNat a.toNat) (Char.ofNat b.toNat)

/-- A byte of an escape: the units that it completes, and the character that it goes on with; `none` where no
text in UTF-8 has it. -/
def escapedByte : Option PartialChar → ℕ → Option (List UInt16 × Option PartialChar)
  | none, b =>
    if b < 0x80 then some ([b.toUInt16], none)
    else if b < 0xC2 ∨ 0xF5 ≤ b then none
    else some ([], (leadByte b).2)
  | some p, b =>
    if p.lower ≤ b ∧ b ≤ p.upper then
      let code := 64 * p.code + (b - 0x80)
      if p.needed = 1 then some (codeUnits code, none)
      else some ([], some ⟨p.needed - 1, 0x80, 0xBF, code⟩)
    else none

/-- The text of units, from the middle of a character on. A character that is begun in escapes ends in them. -/
def decodeUriFrom : Option PartialChar → List UInt16 → Option (List UInt16)
  | none, [] => some []
  | some _, [] => none
  | p, u :: rest =>
    if u = unit '%' then
      match rest with
      | a :: b :: rest =>
        match (unitPair a b).bind (escapedByte p) with
        | some (out, p) => (decodeUriFrom p rest).map (out ++ ·)
        | none => none
      | _ => none
    else
      match p with
      | none => (decodeUriFrom none rest).map (u :: ·)
      | some _ => none

/-- `decodeURIComponent`; `none` when it throws. -/
def decodeUri (text : List UInt16) : Option (List UInt16) := decodeUriFrom none text

theorem decodeUriFrom_cons {u : UInt16} (hu : u ≠ unit '%') (rest : List UInt16) :
    decodeUriFrom none (u :: rest) = (decodeUriFrom none rest).map (u :: ·) := by
  rw [decodeUriFrom.eq_def]
  simp only [if_neg hu]

theorem decodeUriFrom_middle {u : UInt16} (hu : u ≠ unit '%') (p : PartialChar) (rest : List UInt16) :
    decodeUriFrom (some p) (u :: rest) = none := by
  rw [decodeUriFrom.eq_def]
  simp only [if_neg hu]

theorem decodeUriFrom_escape (p : Option PartialChar) (a b : UInt16) (rest : List UInt16) :
    decodeUriFrom p (unit '%' :: a :: b :: rest) =
      ((unitPair a b).bind (escapedByte p)).bind fun r => (decodeUriFrom r.2 rest).map (r.1 ++ ·) := by
  rw [decodeUriFrom.eq_def]
  simp only [if_pos]
  cases (unitPair a b).bind (escapedByte p) <;> rfl

/-- An escape that the end of the text cuts off. -/
theorem decodeUriFrom_cut (p : Option PartialChar) {rest : List UInt16} (h : rest.length < 2) :
    decodeUriFrom p (unit '%' :: rest) = none := by
  rw [decodeUriFrom.eq_def]
  simp only [if_pos]
  match rest, h with
  | [], _ => rfl
  | [a], _ => rfl
  | a :: b :: rest, h =>
    simp only [List.length_cons] at h
    omega

/-- An escape whose units are no digits. -/
theorem decodeUriFrom_noDigits (p : Option PartialChar) {a b : UInt16} (h : unitPair a b = none)
    (rest : List UInt16) : decodeUriFrom p (unit '%' :: a :: b :: rest) = none := by
  rw [decodeUriFrom_escape, h]
  rfl

theorem unitPair_eq_none {a b : UInt16} (h : unitHex a = none ∨ unitHex b = none) : unitPair a b = none := by
  unfold unitHex at h
  unfold unitPair hexPair
  rcases h with h | h
  · rw [h]
    rfl
  · rw [h]
    cases hexValue (Char.ofNat a.toNat) <;> rfl

/-! ### Lengths -/

theorem length_codeUnits (code : ℕ) : (codeUnits code).length ≤ 2 := by
  unfold codeUnits
  split_ifs <;> simp

/-- An escape has three units and completes two at most. -/
theorem length_escapedByte {p p' : Option PartialChar} {b : ℕ} {out : List UInt16}
    (h : escapedByte p b = some (out, p')) : out.length ≤ 2 := by
  cases p with
  | none =>
    unfold escapedByte at h
    simp only at h
    split_ifs at h
    all_goals
      rw [Option.some.injEq, Prod.mk.injEq] at h
      rw [← h.1]
      simp
  | some p =>
    unfold escapedByte at h
    simp only at h
    split_ifs at h with hbounds hneeded
    · rw [Option.some.injEq, Prod.mk.injEq] at h
      rw [← h.1]
      exact length_codeUnits _
    · rw [Option.some.injEq, Prod.mk.injEq] at h
      rw [← h.1]
      simp

/-- Decoding makes no text longer, and every text with a percent sign shorter. -/
theorem length_decodeUriFrom {p : Option PartialChar} {text out : List UInt16}
    (h : decodeUriFrom p text = some out) :
    out.length ≤ text.length ∧ (unit '%' ∈ text → out.length < text.length) := by
  fun_induction decodeUriFrom p text generalizing out with
  | case1 =>
    rw [← Option.some.inj h]
    exact ⟨le_rfl, fun hmem => absurd hmem List.not_mem_nil⟩
  | case2 => cases h
  | case3 p a b rest first p' hbyte ih =>
    obtain ⟨out', hrest, rfl⟩ := Option.map_eq_some_iff.1 h
    obtain ⟨byte, -, hescaped⟩ := Option.bind_eq_some_iff.1 hbyte
    have hfirst := length_escapedByte hescaped
    have hle := (ih hrest).1
    simp only [List.length_append, List.length_cons]
    omega
  | case4 => cases h
  | case5 => cases h
  | case6 u rest hu ih =>
    obtain ⟨out', hrest, rfl⟩ := Option.map_eq_some_iff.1 h
    obtain ⟨hle, hlt⟩ := ih hrest
    rw [List.length_cons, List.length_cons]
    refine ⟨by omega, fun hmem => ?_⟩
    rcases List.mem_cons.1 hmem with heq | hmem
    · exact absurd heq.symm hu
    · have := hlt hmem
      omega
  | case7 => cases h

theorem decodeUri_of_notMem {text : List UInt16} (h : unit '%' ∉ text) : decodeUri text = some text := by
  unfold decodeUri
  induction text with
  | nil => rfl
  | cons u text ih =>
    rw [List.mem_cons, not_or] at h
    rw [decodeUriFrom_cons (Ne.symm h.1), ih h.2]
    rfl

/-- A text is left as it is exactly if it has no percent sign. -/
theorem decodeUri_eq_self_iff {text : List UInt16} : decodeUri text = some text ↔ unit '%' ∉ text := by
  refine ⟨fun h hmem => ?_, decodeUri_of_notMem⟩
  have hlt := (length_decodeUriFrom h).2 hmem
  omega

/-! ### Parts -/

/-- A unit that stands in no escape. -/
def IsApart (u : UInt16) : Prop := u ≠ unit '%' ∧ unitHex u = none

/-- A text is decoded in its parts before and behind such a unit. -/
theorem decodeUriFrom_append_cons {sep : UInt16} (hsep : IsApart sep) (p : Option PartialChar)
    (before after : List UInt16) :
    decodeUriFrom p (before ++ sep :: after) =
      (decodeUriFrom p before).bind fun out => (decodeUri after).map (out ++ sep :: ·) := by
  obtain ⟨hpercent, hhex⟩ := hsep
  unfold decodeUri
  fun_induction decodeUriFrom p before with
  | case1 =>
    rw [List.nil_append, decodeUriFrom_cons hpercent]
    rfl
  | case2 p =>
    rw [List.nil_append, decodeUriFrom_middle hpercent]
    rfl
  | case3 p a b rest first p' hbyte ih =>
    rw [List.cons_append, List.cons_append, List.cons_append, decodeUriFrom_escape, hbyte, Option.bind_some, ih]
    cases decodeUriFrom p' rest with
    | none => rfl
    | some out => cases decodeUriFrom none after <;> simp
  | case4 p a b rest hbyte =>
    rw [List.cons_append, List.cons_append, List.cons_append, decodeUriFrom_escape, hbyte]
    rfl
  | case5 p rest hshort =>
    -- The escape has no digits or one before the separator.
    match rest, hshort with
    | [], _ =>
      cases after with
      | nil =>
        rw [List.cons_append, List.nil_append, decodeUriFrom_cut p (by simp)]
        rfl
      | cons b after =>
        rw [List.cons_append, List.nil_append, decodeUriFrom_noDigits p (unitPair_eq_none (.inl hhex))]
        rfl
    | [a], _ =>
      rw [List.cons_append, List.cons_append, List.nil_append,
        decodeUriFrom_noDigits p (unitPair_eq_none (.inr hhex))]
      rfl
    | a :: b :: rest, hshort => exact (hshort a b rest rfl).elim
  | case6 u rest hu ih =>
    rw [List.cons_append, decodeUriFrom_cons hu, ih]
    cases decodeUriFrom none rest with
    | none => rfl
    | some out => cases decodeUriFrom none after <;> simp
  | case7 u rest hu p =>
    rw [List.cons_append, decodeUriFrom_middle hu]
    rfl

/-- A text can be decoded when its parts can. -/
theorem decodeUri_append_cons {sep : UInt16} (hsep : IsApart sep) (before after : List UInt16) :
    decodeUri (before ++ sep :: after) = none ↔ decodeUri before = none ∨ decodeUri after = none := by
  rw [decodeUri, decodeUriFrom_append_cons hsep]
  cases hbefore : decodeUriFrom none before with
  | none => simp [decodeUri, hbefore]
  | some out => simp [decodeUri, hbefore]

end AlsaqiBackend.Lib
