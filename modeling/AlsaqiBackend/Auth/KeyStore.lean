import AlsaqiBackend.Lib.Modify
import AlsaqiBackend.Lib.Run

/-!
# Signing keys on disk

`KeyStore.getOrCreate` loads the pair of keys that tokens are signed with, or generates one and saves it. The
directory is the first of two that passes a write test, so that it can be another one at each start; processes
that start at the same time share the files, and between the steps of one the others go on. A file is opened,
which empties it, before its content is written.

`stable_of_guarded`: a pair that has been saved is returned by every later start when each start resolves to the
directory of that pair, and no overlapping one writes to its file or saves another pair after it.
-/

namespace AlsaqiBackend.Auth

open AlsaqiBackend.Lib

/-! ## Keys and files -/

/-- A pair of keys in the PEM format. -/
structure KeyPair where
  privateKey : String
  publicKey : String
  deriving DecidableEq, Repr

/-- `text.includes(part)`. -/
def includesText (text part : String) : Bool := text.toList.tails.any fun rest => part.toList.isPrefixOf rest

/-- The check of `load` on the keys. -/
def KeyPair.isPem (keys : KeyPair) : Bool :=
  includesText keys.privateKey "-----BEGIN" && includesText keys.publicKey "-----BEGIN"

/-- A pair that `generateKeyPairSync` returns. -/
structure GeneratedPair where
  keys : KeyPair
  isPem : keys.isPem = true

/-- `encrypt(JSON.stringify(keys))` with an initialization vector, and `JSON.parse(decrypt(content))`, which is
`none` where it throws, under the one secret. -/
structure KeyCipher where
  encrypt : ℕ → KeyPair → List Char
  decrypt : List Char → Option KeyPair
  decrypt_encrypt : ∀ iv keys, decrypt (encrypt iv keys) = some keys

/-- What the operations of `ensureDir` on a directory come to. -/
structure DirTest where
  existsSync : Bool
  mkdirSync : Bool
  writeFileSync : Bool
  unlinkSync : Bool
  deriving DecidableEq, Repr

def ensureDir (test : DirTest) : Bool := (test.existsSync || test.mkdirSync) && test.writeFileSync && test.unlinkSync

/-- `DATA_DIR/keys`, and `./data/keys` below the working directory. -/
structure KeyStoreDirs where
  primaryDir : String
  fallbackDir : String

/-- `getKeysDir` of a new process. -/
def getKeysDir (dirs : KeyStoreDirs) (primary fallback : DirTest) : String :=
  if ensureDir primary then dirs.primaryDir
  else if ensureDir fallback then dirs.fallbackDir
  else dirs.primaryDir

/-- `load`, from the content of `.rsa_keys.enc`. -/
def loadKeys (cipher : KeyCipher) (file : Option (List Char)) : Option KeyPair :=
  match file with
  | none => none
  | some content =>
    match cipher.decrypt content with
    | some keys => if keys.isPem then some keys else none
    | none => none

/-- Characters that are written over the beginning of a file. -/
def writeOver (data content : List Char) : List Char := data ++ content.drop data.length

/-! ## Starts -/

inductive KeyPhase where
  /-- The directory is known. -/
  | resolved
  /-- There are no keys to load. -/
  | generating
  /-- The file of the new keys is open. -/
  | writing (pair : GeneratedPair) (iv : ℕ)
  | returned (keys : KeyPair)

/-- A call of `getOrCreate`: its directory, and the pairs that had been saved when it started. -/
structure KeyCall where
  dir : String
  saved : List KeyPair
  phase : KeyPhase

/-- The files by their directories, the calls, and the pairs that have been saved, with their directories. -/
structure KeyVolume where
  files : String → Option (List Char)
  calls : List KeyCall
  persisted : List (String × KeyPair)

inductive KeyAction where
  | start (primary fallback : DirTest)
  | load (i : ℕ)
  /-- New keys, and whether their file can be opened. -/
  | generate (i : ℕ) (pair : GeneratedPair) (iv : ℕ) (opened : Bool)
  /-- The content is written, or after some characters of it the write fails. -/
  | write (i : ℕ) (fails : Option ℕ)

namespace KeyVolume

def setPhase (s : KeyVolume) (i : ℕ) (phase : KeyPhase) : KeyVolume :=
  { s with calls := s.calls.modify i fun call => { call with phase := phase } }

def setFile (s : KeyVolume) (dir : String) (content : List Char) : KeyVolume :=
  { s with files := Function.update s.files dir (some content) }

def persist (s : KeyVolume) (dir : String) (keys : KeyPair) : KeyVolume :=
  { s with persisted := (dir, keys) :: s.persisted }

/-- The content of a file after a write, which may fail. -/
def written (cipher : KeyCipher) (s : KeyVolume) (dir : String) (pair : GeneratedPair) (iv : ℕ) (fails : Option ℕ) :
    List Char :=
  let data := cipher.encrypt iv pair.keys
  writeOver (match fails with
    | none => data
    | some n => data.take n) ((s.files dir).getD [])

/-- One step of a call. -/
def step (cipher : KeyCipher) (dirs : KeyStoreDirs) (s : KeyVolume) : KeyAction → Option KeyVolume
  | .start primary fallback =>
    some { s with calls := s.calls ++ [⟨getKeysDir dirs primary fallback, s.persisted.map Prod.snd, .resolved⟩] }
  | .load i =>
    match s.calls[i]? with
    | some ⟨dir, _, .resolved⟩ =>
      match loadKeys cipher (s.files dir) with
      -- Keys that can be loaded are returned, and no others are generated.
      | some keys => some (s.setPhase i (.returned keys))
      | none => some (s.setPhase i .generating)
    | _ => none
  | .generate i pair iv opened =>
    match s.calls[i]? with
    | some ⟨dir, _, .generating⟩ =>
      -- `writeFileSync` empties the file; an error of it is logged, and the new keys are returned.
      if opened then some ((s.setFile dir []).setPhase i (.writing pair iv))
      else some (s.setPhase i (.returned pair.keys))
    | _ => none
  | .write i fails =>
    match s.calls[i]? with
    | some ⟨dir, _, .writing pair iv⟩ =>
      let t := (s.setFile dir (s.written cipher dir pair iv fails)).setPhase i (.returned pair.keys)
      match fails with
      -- A write that fails leaves the characters it has written, and the keys are still returned.
      | none => some (t.persist dir pair.keys)
      | some _ => some t
    | _ => none

end KeyVolume

/-! ## Stable keys -/

/-- Every call that started after a pair had been saved has returned this pair, if any, and all saved pairs are the
same. -/
structure KeysStable (s : KeyVolume) : Prop where
  returns : ∀ call ∈ s.calls, ∀ keys, call.phase = .returned keys → ∀ saved ∈ call.saved, keys = saved
  agree : ∀ e ∈ s.persisted, ∀ e' ∈ s.persisted, e.2 = e'.2

/-- The condition on a step: a start after a pair has been saved resolves to its directory; a file is opened only
where no pair has been saved; and a write is the first one that succeeds, over nothing that is longer, or it fails
and leaves the file of a saved pair as it was. -/
def Undisturbed (cipher : KeyCipher) (dirs : KeyStoreDirs) (s : KeyVolume) : KeyAction → Prop
  | .start primary fallback => ∀ e ∈ s.persisted, getKeysDir dirs primary fallback = e.1
  | .load _ => True
  | .generate i _ _ opened => opened = true → ∀ call ∈ s.calls[i]?, ∀ e ∈ s.persisted, call.dir ≠ e.1
  | .write i none => s.persisted = [] ∧ ∀ call ∈ s.calls[i]?, ∀ pair iv, call.phase = .writing pair iv →
    ((s.files call.dir).getD []).length ≤ (cipher.encrypt iv pair.keys).length
  | .write i (some n) => n = 0 ∨ ∀ call ∈ s.calls[i]?, ∀ e ∈ s.persisted, call.dir ≠ e.1

/-- The file of every saved pair has it, and the calls that started after that have found it, or are to look for it
there. -/
structure KeysInv (cipher : KeyCipher) (s : KeyVolume) : Prop where
  single : ∀ e ∈ s.persisted, ∀ e' ∈ s.persisted, e = e'
  stored : ∀ e ∈ s.persisted, loadKeys cipher (s.files e.1) = some e.2
  later : ∀ call ∈ s.calls, ∀ saved ∈ call.saved, (call.dir, saved) ∈ s.persisted ∧
    (call.phase = .resolved ∨ call.phase = .returned saved)

variable {cipher : KeyCipher} {dirs : KeyStoreDirs} {s t : KeyVolume} {a : KeyAction} {i : ℕ}

theorem KeysInv.stable (h : KeysInv cipher s) : KeysStable s where
  returns := by
    intro call hcall keys hphase saved hsaved
    obtain ⟨_, hresolved | hreturned⟩ := h.later call hcall saved hsaved
    · rw [hphase] at hresolved
      cases hresolved
    · rw [hphase] at hreturned
      exact KeyPhase.returned.inj hreturned
  agree := by
    intro e he e' he'
    rw [h.single e he e' he']

/-! ## Steps -/

/-- A saved pair can be loaded. -/
theorem loadKeys_encrypt (pair : GeneratedPair) (iv : ℕ) :
    loadKeys cipher (some (cipher.encrypt iv pair.keys)) = some pair.keys := by
  simp only [loadKeys, cipher.decrypt_encrypt, pair.isPem, if_true]

/-- The calls after one of them has come to another phase. -/
theorem mem_setPhase {phase : KeyPhase} {call old : KeyCall} (hold : s.calls[i]? = some old)
    (h : call ∈ (s.setPhase i phase).calls) : call ∈ s.calls ∨ call = { old with phase := phase } := by
  obtain ⟨j, hj⟩ := List.mem_iff_getElem?.1 h
  rcases getElem?_modify_cases hj with ⟨-, y, hy, hx⟩ | ⟨-, hmem⟩
  · obtain rfl := Option.some.inj (hold.symm.trans hy)
    exact Or.inr hx
  · exact Or.inl (List.mem_of_getElem? hmem)

/-- A call that goes on keeps what is known of the calls when it started before a pair had been saved, or returns
the saved one. -/
theorem KeysInv.setPhase {phase : KeyPhase} {old : KeyCall} (h : KeysInv cipher s) (hold : s.calls[i]? = some old)
    (hphase : ∀ saved ∈ old.saved, phase = .returned saved) : KeysInv cipher (s.setPhase i phase) where
  single := h.single
  stored := h.stored
  later := by
    intro call hcall saved hsaved
    rcases mem_setPhase hold hcall with hmem | rfl
    · exact h.later call hmem saved hsaved
    · exact ⟨(h.later old (List.mem_of_getElem? hold) saved hsaved).1, Or.inr (hphase saved hsaved)⟩

/-- Other files than those of the saved pairs can be written. -/
theorem KeysInv.setFile {dir : String} {content : List Char} (h : KeysInv cipher s)
    (hfile : ∀ e ∈ s.persisted, dir = e.1 → some content = s.files dir) : KeysInv cipher (s.setFile dir content) where
  single := h.single
  stored := by
    intro e he
    show loadKeys cipher (Function.update s.files dir (some content) e.1) = some e.2
    by_cases hdir : e.1 = dir
    · rw [hdir, Function.update_self, hfile e he hdir.symm, ← hdir]
      exact h.stored e he
    · rw [Function.update_of_ne hdir]
      exact h.stored e he
  later := h.later

theorem KeysInv.start {primary fallback : DirTest} (h : KeysInv cipher s)
    (hdir : ∀ e ∈ s.persisted, getKeysDir dirs primary fallback = e.1)
    (hstep : s.step cipher dirs (.start primary fallback) = some t) : KeysInv cipher t := by
  obtain rfl := Option.some.inj hstep
  refine ⟨h.single, h.stored, fun call hcall saved hsaved => ?_⟩
  rcases List.mem_append.1 hcall with hold | hnew
  · exact h.later call hold saved hsaved
  · obtain rfl := List.mem_singleton.1 hnew
    obtain ⟨e, he, rfl⟩ := List.mem_map.1 hsaved
    -- The directory of the new call is the one of the saved pair.
    have hpair : (getKeysDir dirs primary fallback, e.2) = e := Prod.ext (hdir e he) rfl
    exact ⟨hpair ▸ he, Or.inl rfl⟩

theorem KeysInv.load (h : KeysInv cipher s) (hstep : s.step cipher dirs (.load i) = some t) : KeysInv cipher t := by
  simp only [KeyVolume.step] at hstep
  split at hstep
  · next dir saved hcall =>
    have hmem := List.mem_of_getElem? hcall
    -- A pair that had been saved is in the file of the call.
    have hfound : ∀ keys ∈ saved, loadKeys cipher (s.files dir) = some keys := by
      intro keys hkeys
      exact h.stored _ (h.later _ hmem keys hkeys).1
    split at hstep
    · next keys hload =>
      obtain rfl := Option.some.inj hstep
      refine h.setPhase hcall fun other hother => ?_
      rw [Option.some.inj (hload.symm.trans (hfound other hother))]
    · next hload =>
      obtain rfl := Option.some.inj hstep
      refine h.setPhase hcall fun other hother => ?_
      exact absurd ((hfound other hother).symm.trans hload) (Option.some_ne_none other)
  · cases hstep

/-- A call that generates keys started before a pair had been saved. -/
theorem KeysInv.saved_eq_nil {call : KeyCall} (h : KeysInv cipher s) (hcall : call ∈ s.calls)
    (hphase : call.phase ≠ .resolved) (hreturned : ∀ keys, call.phase ≠ .returned keys) : call.saved = [] := by
  refine List.eq_nil_iff_forall_not_mem.2 fun saved hsaved => ?_
  obtain ⟨_, hresolved | hfound⟩ := h.later call hcall saved hsaved
  · exact hphase hresolved
  · exact hreturned saved hfound

theorem KeysInv.generate {pair : GeneratedPair} {iv : ℕ} {opened : Bool} (h : KeysInv cipher s)
    (hdir : opened = true → ∀ call ∈ s.calls[i]?, ∀ e ∈ s.persisted, call.dir ≠ e.1)
    (hstep : s.step cipher dirs (.generate i pair iv opened) = some t) : KeysInv cipher t := by
  simp only [KeyVolume.step] at hstep
  split at hstep
  · next dir saved hcall =>
    -- The call has found nothing, so that no pair had been saved when it started.
    have hnil : saved = [] := h.saved_eq_nil (List.mem_of_getElem? hcall) (by simp) (by simp)
    have hphase : ∀ phase, ∀ keys ∈ saved, phase = KeyPhase.returned keys := by
      intro phase keys hkeys
      rw [hnil] at hkeys
      cases hkeys
    split_ifs at hstep with hopened
    · obtain rfl := Option.some.inj hstep
      have hother : KeysInv cipher (s.setFile dir []) :=
        h.setFile fun e he heq => absurd heq (hdir hopened _ hcall e he)
      exact hother.setPhase hcall (hphase _)
    · obtain rfl := Option.some.inj hstep
      exact h.setPhase hcall (hphase _)
  · cases hstep

theorem KeysInv.write {fails : Option ℕ} (h : KeysInv cipher s) (hcond : Undisturbed cipher dirs s (.write i fails))
    (hstep : s.step cipher dirs (.write i fails) = some t) : KeysInv cipher t := by
  simp only [KeyVolume.step] at hstep
  split at hstep
  · next dir saved pair iv hcall =>
    have hnil : saved = [] := h.saved_eq_nil (List.mem_of_getElem? hcall) (by simp) (by simp)
    have hphase : ∀ keys ∈ saved, KeyPhase.returned pair.keys = .returned keys := by
      intro keys hkeys
      rw [hnil] at hkeys
      cases hkeys
    match fails, hcond, hstep with
    -- The first pair that is saved: nothing is known yet of any call.
    | none, ⟨hnone, hlength⟩, hstep =>
      obtain rfl := Option.some.inj hstep
      have hfirst : ∀ e, e ∉ s.persisted := by
        rw [hnone]
        exact fun e => List.not_mem_nil
      have hset : KeysInv cipher
          ((s.setFile dir (s.written cipher dir pair iv none)).setPhase i (.returned pair.keys)) :=
        (h.setFile fun e he => absurd he (hfirst e)).setPhase hcall hphase
      refine ⟨fun e he e' he' => ?_, fun e he => ?_, fun call hmem keys hkeys => ?_⟩
      · rcases List.mem_cons.1 he with rfl | hold
        · rcases List.mem_cons.1 he' with rfl | hold
          · rfl
          · exact absurd hold (hfirst e')
        · exact absurd hold (hfirst e)
      · rcases List.mem_cons.1 he with rfl | hold
        · have hwritten : s.written cipher dir pair iv none = cipher.encrypt iv pair.keys := by
            -- Nothing of a longer content is left behind the new one.
            have hdrop : ((s.files dir).getD []).drop (cipher.encrypt iv pair.keys).length = [] :=
              List.drop_eq_nil_of_le (hlength _ hcall pair iv rfl)
            show cipher.encrypt iv pair.keys ++ ((s.files dir).getD []).drop (cipher.encrypt iv pair.keys).length = _
            rw [hdrop, List.append_nil]
          show loadKeys cipher (Function.update s.files dir (some (s.written cipher dir pair iv none)) dir) = _
          rw [Function.update_self, hwritten, loadKeys_encrypt]
        · exact absurd hold (hfirst e)
      -- A call that knows of a saved pair would have had to start after this write.
      · exact absurd (hset.later call hmem keys hkeys).1 (hfirst _)
    | some n, hcond, hstep =>
      obtain rfl := Option.some.inj hstep
      refine (h.setFile fun e he heq => ?_).setPhase hcall hphase
      -- A write of nothing leaves the file, and any other is not to a saved pair's.
      rcases hcond with rfl | hother
      · have hfile := h.stored e he
        rw [← heq] at hfile
        cases hcontent : s.files dir with
        | none =>
          rw [hcontent] at hfile
          cases hfile
        | some content =>
          unfold KeyVolume.written
          rw [hcontent]
          rfl
      · exact absurd heq (hother _ hcall e he)
  · cases hstep

theorem KeysInv.step (h : KeysInv cipher s) (hcond : Undisturbed cipher dirs s a)
    (hstep : s.step cipher dirs a = some t) : KeysInv cipher t := by
  match a, hcond, hstep with
  | .start .., hcond, hstep => exact h.start hcond hstep
  | .load _, _, hstep => exact h.load hstep
  | .generate .., hcond, hstep => exact h.generate hcond hstep
  | .write .., hcond, hstep => exact h.write hcond hstep

/-! ## Runs -/

/-- Files of an earlier time, and no calls. -/
def KeyVolume.init (files : String → Option (List Char)) : KeyVolume := ⟨files, [], []⟩

/-- Where no step disturbs a saved pair, the keys are stable at any time. -/
theorem stable_of_guarded (cipher : KeyCipher) (dirs : KeyStoreDirs) (files : String → Option (List Char))
    (as : List KeyAction)
    (h : Guarded (KeyVolume.step cipher dirs) (Undisturbed cipher dirs) (.init files) as) :
    Along (KeyVolume.step cipher dirs) KeysStable (.init files) as := by
  have hinit : KeysInv cipher (.init files) :=
    ⟨fun e he => absurd he List.not_mem_nil, fun e he => absurd he List.not_mem_nil,
      fun call hcall => absurd hcall List.not_mem_nil⟩
  exact along_of_guarded (fun _ hs => hs.stable) (fun _ _ _ hs hcond hstep => hs.step hcond hstep) hinit h

/-- The characters up to a bar, each of which follows an `'a'`, and those behind it. -/
def splitMarked : List Char → Option (List Char × List Char)
  | 'a' :: c :: rest => (splitMarked rest).map fun (front, back) => (c :: front, back)
  | '|' :: rest => some ([], rest)
  | _ => none

theorem splitMarked_flatMap (front back : List Char) :
    splitMarked (front.flatMap (fun c => ['a', c]) ++ '|' :: back) = some (front, back) := by
  induction front with
  | nil => rfl
  | cons c front ih =>
    show (splitMarked (front.flatMap (fun c => ['a', c]) ++ '|' :: back)).map _ = _
    rw [ih]
    rfl

/-- A cipher that marks the characters of the private key. -/
def markingCipher : KeyCipher where
  encrypt := fun _ keys => keys.privateKey.toList.flatMap (fun c => ['a', c]) ++ '|' :: keys.publicKey.toList
  decrypt := fun content => (splitMarked content).map fun (front, back) => ⟨String.ofList front, String.ofList back⟩
  decrypt_encrypt := by
    intro _ keys
    rw [splitMarked_flatMap]
    simp

/-- A pair with a name. -/
def namedPair (name : String) (h : (⟨"-----BEGIN" ++ name, "-----BEGIN" ++ name⟩ : KeyPair).isPem = true) :
    GeneratedPair := ⟨⟨"-----BEGIN" ++ name, "-----BEGIN" ++ name⟩, h⟩

def pairOne : GeneratedPair := namedPair "1" (by decide +kernel)

def pairTwo : GeneratedPair := namedPair "2" (by decide +kernel)

def volumeDirs : KeyStoreDirs := ⟨"/data/keys", "/app/data/keys"⟩

/-- A test that a directory passes, and one that it does not. -/
def writable : DirTest := ⟨true, true, true, true⟩

def readOnly : DirTest := ⟨true, true, false, false⟩

/-- A start generates a pair and saves it, and the next one loads it. -/
def restart : List KeyAction :=
  [.start writable writable, .load 0, .generate 0 pairOne 0 true, .write 0 none, .start writable writable, .load 1]

theorem restart_stable : Along (KeyVolume.step markingCipher volumeDirs) KeysStable (.init fun _ => none) restart := by
  refine stable_of_guarded markingCipher volumeDirs (fun _ => none) restart ?_
  refine (forall_step_iff rfl).2 ⟨fun e he => absurd he List.not_mem_nil, ?_⟩
  refine (forall_step_iff rfl).2 ⟨trivial, ?_⟩
  refine (forall_step_iff rfl).2 ⟨fun _ call _ e he => absurd he List.not_mem_nil, ?_⟩
  refine (forall_step_iff rfl).2 ⟨⟨rfl, fun call hcall pair iv _ => ?_⟩, ?_⟩
  · obtain rfl := Option.some.inj hcall
    exact Nat.zero_le _
  · refine (forall_step_iff rfl).2 ⟨fun e he => ?_, ?_⟩
    · obtain rfl := List.mem_singleton.1 he
      rfl
    · refine fun t ht => ⟨trivial, trivial⟩

/-- The directory fails its write test at the second start, which generates another pair. -/
def failedTest : List KeyAction :=
  [.start writable writable, .load 0, .generate 0 pairOne 0 true, .write 0 none, .start readOnly writable, .load 1,
    .generate 1 pairTwo 0 true, .write 1 none]

/-- Two starts find no keys, and both save theirs. -/
def twoStarts : List KeyAction :=
  [.start writable writable, .start writable writable, .load 0, .load 1, .generate 0 pairOne 0 true, .write 0 none,
    .generate 1 pairTwo 0 true, .write 1 none]

theorem keys_not_stable :
    (∃ s, run (KeyVolume.step markingCipher volumeDirs) (.init fun _ => none) failedTest = some s ∧ ¬KeysStable s) ∧
    ∃ s, run (KeyVolume.step markingCipher volumeDirs) (.init fun _ => none) twoStarts = some s ∧ ¬KeysStable s := by
  refine ⟨⟨_, rfl, fun h => ?_⟩, ⟨_, rfl, fun h => ?_⟩⟩
  -- The second start has returned the second pair, and the first one had been saved.
  · have hsame := h.returns _ (List.mem_cons_of_mem _ List.mem_cons_self) _ rfl _ List.mem_cons_self
    exact absurd hsame (by decide)
  -- Both pairs have been saved, the second one over the first.
  · have hsame := h.agree _ List.mem_cons_self _ (List.mem_cons_of_mem _ List.mem_cons_self)
    exact absurd hsame (by decide)

end AlsaqiBackend.Auth
