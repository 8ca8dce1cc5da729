import Mathlib.Data.List.Infix

/-!
# `LIKE`

In a pattern `%` stands for any text, `_` for one character, and a backslash makes the character behind it stand
for itself; a pattern that ends in a lone backslash is an error. `likeResult` is the test of a text.

A search puts `%` around the text that is looked for. When the text is escaped, the pattern matches exactly the
texts that contain it (`like_contains_escape`). Without that it does so exactly when the text has none of the
three characters (`like_contains_iff`): otherwise `sample` is a text that matches and does not contain it.
-/

namespace AlsaqiBackend.Lib

inductive LikeToken where
  | literal (c : Char)
  /-- `_`. -/
  | one
  /-- `%`. -/
  | any
  deriving DecidableEq, Repr

/-- The parts of a pattern, where `escaped` tells that a backslash was read last; `none` when it ends in a lone
one. -/
def likeTokens (escaped : Bool) : List Char → Option (List LikeToken)
  | [] => if escaped then none else some []
  | c :: rest =>
    if escaped then (likeTokens false rest).map (.literal c :: ·)
    else if c = '\\' then likeTokens true rest
    else if c = '%' then (likeTokens false rest).map (.any :: ·)
    else if c = '_' then (likeTokens false rest).map (.one :: ·)
    else (likeTokens false rest).map (.literal c :: ·)

def likeMatches : List LikeToken → List Char → Bool
  | [], text => text.isEmpty
  | .any :: tokens, text => text.tails.any (likeMatches tokens)
  | .one :: _, [] => false
  | .one :: tokens, _ :: text => likeMatches tokens text
  | .literal _ :: _, [] => false
  | .literal c :: tokens, d :: text => c == d && likeMatches tokens text

/-- `text LIKE pattern`. -/
def likeResult (pattern text : List Char) : Option Bool := (likeTokens false pattern).map (likeMatches · text)

def isLikeSpecial (c : Char) : Bool := c == '\\' || c == '%' || c == '_'

/-- Every special character with a backslash before it. -/
def escapeLike (text : List Char) : List Char := text.flatMap fun c => if isLikeSpecial c then ['\\', c] else [c]

/-- The pattern for the texts that contain one. -/
def containsPattern (text : List Char) : List Char := '%' :: text ++ ['%']

variable {c : Char} {tokens : List LikeToken} {w text rest : List Char}

theorem likeTokens_escaped (c : Char) (rest : List Char) :
    likeTokens false ('\\' :: c :: rest) = (likeTokens false rest).map (.literal c :: ·) := by
  rw [likeTokens, if_neg Bool.false_ne_true, if_pos rfl, likeTokens, if_pos rfl]

theorem likeTokens_any (rest : List Char) :
    likeTokens false ('%' :: rest) = (likeTokens false rest).map (.any :: ·) := by
  rw [likeTokens, if_neg Bool.false_ne_true, if_neg (by decide), if_pos rfl]

theorem likeTokens_plain (h : isLikeSpecial c = false) :
    likeTokens false (c :: rest) = (likeTokens false rest).map (.literal c :: ·) := by
  simp only [isLikeSpecial, Bool.or_eq_false_iff, beq_eq_false_iff_ne] at h
  obtain ⟨⟨hescape, hany⟩, hone⟩ := h
  rw [likeTokens, if_neg Bool.false_ne_true, if_neg hescape, if_neg hany, if_neg hone]

/-- An escaped text stands for itself. -/
theorem likeTokens_escapeLike (w rest : List Char) :
    likeTokens false (escapeLike w ++ rest) = (likeTokens false rest).map (w.map .literal ++ ·) := by
  unfold escapeLike
  induction w with
  | nil => exact (congrFun Option.map_id (likeTokens false rest)).symm
  | cons c w ih =>
    rw [List.flatMap_cons, List.append_assoc]
    cases hc : isLikeSpecial c with
    | true =>
      rw [if_pos rfl, List.cons_append, List.cons_append, List.nil_append, likeTokens_escaped, ih,
        Option.map_map]
      rfl
    | false =>
      rw [if_neg Bool.false_ne_true, List.cons_append, List.nil_append, likeTokens_plain hc, ih, Option.map_map]
      rfl

theorem escapeLike_of_plain (h : ∀ c ∈ w, isLikeSpecial c = false) : escapeLike w = w := by
  unfold escapeLike
  induction w with
  | nil => rfl
  | cons c w ih =>
    rw [List.flatMap_cons, h c List.mem_cons_self, ih fun d hd => h d (List.mem_cons_of_mem _ hd)]
    rfl

theorem likeMatches_any_iff :
    likeMatches (.any :: tokens) text = true ↔ ∃ suffix, suffix <:+ text ∧ likeMatches tokens suffix = true := by
  simp [likeMatches, List.any_eq_true]

theorem likeMatches_literals_iff :
    likeMatches (w.map .literal ++ tokens) text = true ↔
      ∃ rest, text = w ++ rest ∧ likeMatches tokens rest = true := by
  induction w generalizing text with
  | nil => simp
  | cons c w ih =>
    cases text with
    | nil => simp [likeMatches]
    | cons d text =>
      have hcons : likeMatches ((c :: w).map .literal ++ tokens) (d :: text) =
          (c == d && likeMatches (w.map .literal ++ tokens) text) := rfl
      rw [hcons, Bool.and_eq_true, beq_iff_eq, ih]
      constructor
      · rintro ⟨rfl, rest, rfl, hrest⟩
        exact ⟨rest, rfl, hrest⟩
      · rintro ⟨rest, heq, hrest⟩
        obtain ⟨rfl, rfl⟩ := List.cons.inj heq
        exact ⟨rfl, rest, rfl, hrest⟩

theorem likeMatches_any (text : List Char) : likeMatches [.any] text = true :=
  likeMatches_any_iff.2 ⟨[], List.nil_suffix, rfl⟩

/-- The pattern for an escaped text matches the texts that contain it. -/
theorem like_contains_escape (w text : List Char) :
    likeResult (containsPattern (escapeLike w)) text = some true ↔ w <:+: text := by
  have htokens : likeTokens false (containsPattern (escapeLike w)) = some (.any :: (w.map .literal ++ [.any])) := by
    have hlast : likeTokens false ['%'] = some [.any] := rfl
    unfold containsPattern
    rw [List.cons_append, likeTokens_any, likeTokens_escapeLike, hlast]
    rfl
  unfold likeResult
  rw [htokens, Option.map_some, Option.some.injEq, likeMatches_any_iff]
  constructor
  · rintro ⟨suffix, ⟨front, rfl⟩, hmatch⟩
    obtain ⟨rest, rfl, -⟩ := likeMatches_literals_iff.1 hmatch
    exact ⟨front, rest, by rw [List.append_assoc]⟩
  · rintro ⟨front, rest, rfl⟩
    refine ⟨w ++ rest, ⟨front, by rw [List.append_assoc]⟩, ?_⟩
    exact likeMatches_literals_iff.2 ⟨rest, rfl, likeMatches_any rest⟩

/-! ## Texts that are not escaped -/

/-- A text that matches the pattern around `w`: as short as it can be, with another character for `_`. A lone
backslash at its end takes the `%` of the pattern. -/
def sample (escaped : Bool) : List Char → List Char
  | [] => if escaped then ['%'] else []
  | c :: rest =>
    if escaped then c :: sample false rest
    else if c = '\\' then sample true rest
    else if c = '%' then sample false rest
    else if c = '_' then 'x' :: sample false rest
    else c :: sample false rest

theorem sample_matches (escaped : Bool) (w : List Char) :
    ∃ tokens, likeTokens escaped (w ++ ['%']) = some tokens ∧ likeMatches tokens (sample escaped w) = true := by
  induction w generalizing escaped with
  | nil =>
    cases escaped with
    | true => exact ⟨[.literal '%'], rfl, rfl⟩
    | false => exact ⟨[.any], rfl, likeMatches_any []⟩
  | cons c rest ih =>
    obtain ⟨tokens, htokens, hmatch⟩ := ih false
    rw [List.cons_append, likeTokens, sample]
    split
    · exact ⟨.literal c :: tokens, by rw [htokens]; rfl, by simp [likeMatches, hmatch]⟩
    split
    · exact ih true
    split
    · refine ⟨.any :: tokens, by rw [htokens]; rfl, ?_⟩
      exact likeMatches_any_iff.2 ⟨sample false rest, List.suffix_rfl, hmatch⟩
    split
    · exact ⟨.one :: tokens, by rw [htokens]; rfl, hmatch⟩
    · exact ⟨.literal c :: tokens, by rw [htokens]; rfl, by simp [likeMatches, hmatch]⟩

/-- It is not longer, also with a backslash before it. -/
theorem length_sample_le (escaped : Bool) (w : List Char) :
    (sample escaped w).length ≤ w.length + if escaped then 1 else 0 := by
  induction w generalizing escaped with
  | nil => cases escaped <;> decide
  | cons c rest ih =>
    have hplain := ih false
    have hescaped := ih true
    simp only [Bool.false_eq_true, if_false, if_true] at hplain hescaped
    rw [sample]
    split
    · simp only [List.length_cons]
      omega
    split
    · simp only [List.length_cons]
      omega
    split
    · simp only [List.length_cons]
      omega
    split <;>
    · simp only [List.length_cons]
      omega

/-- Only a text without special characters is its own sample. -/
theorem plain_of_sample_eq {w : List Char} (h : sample false w = w) : ∀ c ∈ w, isLikeSpecial c = false := by
  induction w with
  | nil => simp
  | cons c rest ih =>
    have hplain := length_sample_le false rest
    simp only [Bool.false_eq_true, if_false] at hplain
    rw [sample, if_neg Bool.false_ne_true] at h
    split at h
    · rename_i hescape
      subst hescape
      -- Behind the backslash there is one character less, or the `%` of the pattern.
      cases rest with
      | nil => cases h
      | cons d rest =>
        have hrest := length_sample_le false rest
        have hlength := congrArg List.length h
        rw [sample, if_pos rfl] at hlength
        simp only [Bool.false_eq_true, if_false, List.length_cons] at hrest hlength
        omega
    split at h
    · have hlength := congrArg List.length h
      rw [List.length_cons] at hlength
      omega
    split at h
    · rename_i hone
      obtain ⟨hx, -⟩ := List.cons.inj h
      rw [hone] at hx
      exact absurd hx (by decide)
    · rename_i hescape hany hone
      intro d hd
      rcases List.mem_cons.1 hd with rfl | hd
      · simp [isLikeSpecial, hescape, hany, hone]
      · exact ih (List.cons.inj h).2 d hd

theorem like_contains_sample (w : List Char) : likeResult (containsPattern w) (sample false w) = some true := by
  obtain ⟨tokens, htokens, hmatch⟩ := sample_matches false w
  unfold likeResult containsPattern
  rw [List.cons_append, likeTokens_any, htokens]
  exact congrArg some (likeMatches_any_iff.2 ⟨sample false w, List.suffix_rfl, hmatch⟩)

/-- The pattern for a text that is not escaped matches the texts that contain it exactly when it has no special
character. -/
theorem like_contains_iff (w : List Char) :
    (∀ text, likeResult (containsPattern w) text = some true ↔ w <:+: text) ↔ ∀ c ∈ w, isLikeSpecial c = false := by
  constructor
  · intro h
    have hpart : w <:+: sample false w := (h (sample false w)).1 (like_contains_sample w)
    have hlength : w.length = (sample false w).length :=
      Nat.le_antisymm hpart.length_le (length_sample_le false w)
    exact plain_of_sample_eq (hpart.eq_of_length hlength).symm
  · intro h text
    have hescape := like_contains_escape w text
    rw [escapeLike_of_plain h] at hescape
    exact hescape

end AlsaqiBackend.Lib
