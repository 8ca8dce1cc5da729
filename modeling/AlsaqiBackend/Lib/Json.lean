import Mathlib.Data.List.Basic

/-!
# JSON texts

Values of JSON, `stringify` with the text that JavaScript writes for one, and `parse` for the value of a
text. A number is kept as its text, and an object as its members in their order; the keys of a value that
is written are different, so nothing is said about repeated ones.

`parse_stringify` is the round trip. `length_lt_of_parse_str` says that a text for a string is longer than
the string.
-/

namespace AlsaqiBackend.Lib

/-! ## Values -/

/-- The characters of a number. -/
def isNumberChar (c : Char) : Bool :=
  c ∈ ['0', '1', '2', '3', '4', '5', '6', '7', '8', '9', '+', '-', '.', 'e', 'E']

def isExponent : List Char → Bool
  | [] => true
  | e :: rest =>
    (e = 'e' || e = 'E') &&
      match rest with
      | '+' :: digits => digits ≠ [] && digits.all Char.isDigit
      | '-' :: digits => digits ≠ [] && digits.all Char.isDigit
      | digits => digits ≠ [] && digits.all Char.isDigit

def isFraction : List Char → Bool
  | '.' :: digits =>
    digits.takeWhile Char.isDigit ≠ [] && isExponent (digits.dropWhile Char.isDigit)
  | rest => isExponent rest

def isUnsigned : List Char → Bool
  | '0' :: rest => isFraction rest
  | digits => digits.takeWhile Char.isDigit ≠ [] && isFraction (digits.dropWhile Char.isDigit)

/-- The text of a number: a sign, digits without a leading zero, a fraction, an exponent. -/
def isNumber (text : List Char) : Bool :=
  text.all isNumberChar &&
    match text with
    | '-' :: rest => isUnsigned rest
    | rest => isUnsigned rest

structure JsonNumber where
  text : List Char
  valid : isNumber text = true
  deriving DecidableEq, Repr

inductive Json
  | null
  | bool (b : Bool)
  | num (n : JsonNumber)
  | str (s : List Char)
  | arr (items : List Json)
  | obj (members : List (List Char × Json))
  deriving Repr

/-! ## From a value to its text -/

/-- A character within the quotes. -/
def escapeChar (c : Char) : List Char :=
  if c = '"' then ['\\', '"']
  else if c = '\\' then ['\\', '\\']
  else if c = '\x08' then ['\\', 'b']
  else if c = '\x0c' then ['\\', 'f']
  else if c = '\n' then ['\\', 'n']
  else if c = '\r' then ['\\', 'r']
  else if c = '\t' then ['\\', 't']
  else if c.toNat < 32 then
    ['\\', 'u', '0', '0', Nat.digitChar (c.toNat / 16), Nat.digitChar (c.toNat % 16)]
  else [c]

def quote (s : List Char) : List Char := '"' :: (s.flatMap escapeChar ++ ['"'])

mutual

def stringify : Json → List Char
  | .null => ['n', 'u', 'l', 'l']
  | .bool true => ['t', 'r', 'u', 'e']
  | .bool false => ['f', 'a', 'l', 's', 'e']
  | .num n => n.text
  | .str s => quote s
  | .arr [] => ['[', ']']
  | .arr (item :: items) => '[' :: (stringify item ++ stringifyItems items)
  | .obj [] => ['\x7b', '\x7d']
  | .obj ((key, value) :: members) =>
    '\x7b' :: (quote key ++ ':' :: (stringify value ++ stringifyMembers members))

/-- The items after the first, up to the bracket. -/
def stringifyItems : List Json → List Char
  | [] => [']']
  | item :: items => ',' :: (stringify item ++ stringifyItems items)

/-- The members after the first, up to the brace. -/
def stringifyMembers : List (List Char × Json) → List Char
  | [] => ['\x7d']
  | (key, value) :: members => ',' :: (quote key ++ ':' :: (stringify value ++ stringifyMembers members))

end

/-! ## From a text to its value -/

def isSpace (c : Char) : Bool := c ∈ [' ', '\t', '\n', '\r']

def skipSpace (text : List Char) : List Char := text.dropWhile isSpace

def hexValue (c : Char) : Option ℕ :=
  if '0' ≤ c ∧ c ≤ '9' then some (c.toNat - 48)
  else if 'a' ≤ c ∧ c ≤ 'f' then some (c.toNat - 87)
  else if 'A' ≤ c ∧ c ≤ 'F' then some (c.toNat - 55)
  else none

/-- The unit of UTF-16 that four hexadecimal digits stand for. -/
def codeUnit (a b c d : Char) : Option ℕ := do
  let a ← hexValue a
  let b ← hexValue b
  let c ← hexValue c
  let d ← hexValue d
  return ((a * 16 + b) * 16 + c) * 16 + d

/-- The character that a backslash and this one stand for. -/
def unescape (c : Char) : Option Char :=
  if c = '"' ∨ c = '\\' ∨ c = '/' then some c
  else if c = 'b' then some '\x08'
  else if c = 'f' then some '\x0c'
  else if c = 'n' then some '\n'
  else if c = 'r' then some '\r'
  else if c = 't' then some '\t'
  else none

/-- One more character before the result. -/
def addChar (c : Char) (result : Option (List Char × List Char)) : Option (List Char × List Char) :=
  result.map fun (s, rest) => (c :: s, rest)

/-- The string up to the closing quote, and what follows. A high surrogate needs a low one. -/
def parseString : List Char → Option (List Char × List Char)
  | [] => none
  | '"' :: rest => some ([], rest)
  | '\\' :: 'u' :: a :: b :: c :: d :: rest =>
    match codeUnit a b c d with
    | none => none
    | some unit =>
      if 0xD800 ≤ unit ∧ unit < 0xDC00 then
        match rest with
        | '\\' :: 'u' :: e :: f :: g :: h :: rest =>
          match codeUnit e f g h with
          | none => none
          | some low =>
            if 0xDC00 ≤ low ∧ low < 0xE000 then
              addChar (Char.ofNat (0x10000 + (unit - 0xD800) * 0x400 + (low - 0xDC00)))
                (parseString rest)
            else none
        | _ => none
      else if 0xDC00 ≤ unit ∧ unit < 0xE000 then none
      else addChar (Char.ofNat unit) (parseString rest)
  | '\\' :: c :: rest =>
    match unescape c with
    | none => none
    | some c => addChar c (parseString rest)
  | c :: rest => if c.toNat < 32 ∨ c = '\\' then none else addChar c (parseString rest)

/-- The number that the text begins with. -/
def parseNumber (text : List Char) : Option (Json × List Char) :=
  if h : isNumber (text.takeWhile isNumberChar) = true then
    some (.num ⟨text.takeWhile isNumberChar, h⟩, text.dropWhile isNumberChar)
  else none

mutual

/-- The value that the text begins with, and what follows. -/
def parseValue : ℕ → List Char → Option (Json × List Char)
  | 0, _ => none
  | fuel + 1, text =>
    match skipSpace text with
    | 'n' :: 'u' :: 'l' :: 'l' :: rest => some (.null, rest)
    | 't' :: 'r' :: 'u' :: 'e' :: rest => some (.bool true, rest)
    | 'f' :: 'a' :: 'l' :: 's' :: 'e' :: rest => some (.bool false, rest)
    | '"' :: rest => (parseString rest).map fun (s, rest) => (.str s, rest)
    | '[' :: rest =>
      match skipSpace rest with
      | ']' :: rest => some (.arr [], rest)
      | rest => (parseItems fuel rest).map fun (items, rest) => (.arr items, rest)
    | '\x7b' :: rest =>
      match skipSpace rest with
      | '\x7d' :: rest => some (.obj [], rest)
      | rest => (parseMembers fuel rest).map fun (members, rest) => (.obj members, rest)
    | text => parseNumber text

def parseItems : ℕ → List Char → Option (List Json × List Char)
  | 0, _ => none
  | fuel + 1, text =>
    match parseValue fuel text with
    | none => none
    | some (item, rest) =>
      match skipSpace rest with
      | ']' :: rest => some ([item], rest)
      | ',' :: rest => (parseItems fuel rest).map fun (items, rest) => (item :: items, rest)
      | _ => none

def parseMembers : ℕ → List Char → Option (List (List Char × Json) × List Char)
  | 0, _ => none
  | fuel + 1, text =>
    match skipSpace text with
    | '"' :: rest =>
      match parseString rest with
      | none => none
      | some (key, rest) =>
        match skipSpace rest with
        | ':' :: rest =>
          match parseValue fuel rest with
          | none => none
          | some (value, rest) =>
            match skipSpace rest with
            | '\x7d' :: rest => some ([(key, value)], rest)
            | ',' :: rest =>
              (parseMembers fuel rest).map fun (members, rest) => ((key, value) :: members, rest)
            | _ => none
        | _ => none
    | _ => none

end

/-- The value of a text; `none` when it is not JSON. -/
def parse (text : List Char) : Option Json :=
  match parseValue (text.length + 1) text with
  | none => none
  | some (value, rest) => if skipSpace rest = [] then some value else none

/-! ## Strings -/

/-- The two digits of a control character stand for it. -/
theorem codeUnit_digitChar {n : ℕ} (h : n < 32) :
    codeUnit '0' '0' (Nat.digitChar (n / 16)) (Nat.digitChar (n % 16)) = some n := by
  have hall : ∀ n < 32, codeUnit '0' '0' (Nat.digitChar (n / 16)) (Nat.digitChar (n % 16)) = some n := by
    decide
  exact hall n h

/-- A character that is written is read. -/
theorem parseString_escapeChar (c : Char) (rest : List Char) :
    parseString (escapeChar c ++ rest) = addChar c (parseString rest) := by
  unfold escapeChar
  split_ifs with hquote hbackslash hb hf hn hr ht hcontrol
  · subst hquote
    simp [parseString, unescape]
  · subst hbackslash
    simp [parseString, unescape]
  · subst hb
    simp [parseString, unescape]
  · subst hf
    simp [parseString, unescape]
  · subst hn
    simp [parseString, unescape]
  · subst hr
    simp [parseString, unescape]
  · subst ht
    simp [parseString, unescape]
  · have hhigh : ¬ 0xD800 ≤ c.toNat := by omega
    have hlow : ¬ 0xDC00 ≤ c.toNat := by omega
    simp [parseString, codeUnit_digitChar hcontrol, hhigh, hlow]
  · simp [parseString, hbackslash, hcontrol]

theorem parseString_quote (s rest : List Char) :
    parseString (s.flatMap escapeChar ++ '"' :: rest) = some (s, rest) := by
  induction s with
  | nil => simp [parseString]
  | cons c s ih => rw [List.flatMap_cons, List.append_assoc, parseString_escapeChar, ih, addChar,
      Option.map_some]

/-- What `addChar` returns, it returns with one more character. -/
theorem addChar_eq_some {c : Char} {result : Option (List Char × List Char)} {s rest : List Char}
    (h : addChar c result = some (s, rest)) : ∃ s', result = some (s', rest) ∧ s = c :: s' := by
  obtain ⟨⟨s', rest'⟩, hresult, heq⟩ := Option.map_eq_some_iff.1 h
  obtain ⟨rfl, rfl⟩ := Prod.mk.injEq _ _ _ _ ▸ heq
  exact ⟨s', hresult, rfl⟩

/-- A string and what follows it are shorter than their text. -/
theorem length_of_parseString {text s rest : List Char} (h : parseString text = some (s, rest)) :
    s.length + rest.length < text.length := by
  fun_induction parseString text generalizing s rest with
  | case2 rest' =>
    obtain ⟨rfl, rfl⟩ := Prod.mk.injEq _ _ _ _ ▸ Option.some.inj h
    simp
  | case5 _ _ _ _ _ _ _ _ _ _ _ rest' _ _ _ ih | case9 _ _ _ _ rest' _ _ _ _ ih
  | case11 _ rest' _ _ _ ih | case13 _ rest' _ _ _ _ ih =>
    obtain ⟨s', hs', rfl⟩ := addChar_eq_some h
    have hlt := ih hs'
    simp only [List.length_cons]
    omega
  | _ => cases h

/-! ## The round trip -/

/-- The text begins with no character of a number. -/
def EndsNumber (rest : List Char) : Prop := ∀ c ∈ rest.head?, isNumberChar c = false

theorem skipSpace_cons {c : Char} (hc : isSpace c = false) (rest : List Char) :
    skipSpace (c :: rest) = c :: rest := by
  rw [skipSpace, List.dropWhile_cons_of_neg (by simp [hc])]

/-- The text of a number ends where the number does. -/
theorem parseNumber_append (n : JsonNumber) {rest : List Char} (hrest : EndsNumber rest) :
    parseNumber (n.text ++ rest) = some (.num n, rest) := by
  obtain ⟨text, hvalid⟩ := n
  have hall : ∀ c ∈ text, isNumberChar c = true := by
    simp only [isNumber, Bool.and_eq_true, List.all_eq_true] at hvalid
    exact hvalid.1
  have htake : (text ++ rest).takeWhile isNumberChar = text := by
    rw [List.takeWhile_append_of_pos hall]
    cases rest with
    | nil => simp
    | cons c rest =>
      rw [List.takeWhile_cons_of_neg (by simp [hrest c rfl]), List.append_nil]
  have hdrop : (text ++ rest).dropWhile isNumberChar = rest := by
    rw [List.dropWhile_append_of_pos hall]
    cases rest with
    | nil => rfl
    | cons c rest => rw [List.dropWhile_cons_of_neg (by simp [hrest c rfl])]
  unfold parseNumber
  simp only [htake, hdrop, hvalid, dif_pos]

/-- A number has a first character, one of a number. -/
theorem JsonNumber.exists_cons (n : JsonNumber) :
    ∃ c cs, n.text = c :: cs ∧ isNumberChar c = true := by
  obtain ⟨text, hvalid⟩ := n
  cases text with
  | nil => exact absurd hvalid (by decide)
  | cons c cs =>
    simp only [isNumber, List.all_cons, Bool.and_eq_true] at hvalid
    exact ⟨c, cs, rfl, hvalid.1.1⟩

/-- What a text begins with that `parseValue` reads as a number. -/
theorem parseValue_number {c : Char} (hc : isNumberChar c = true) (fuel : ℕ) (rest : List Char) :
    parseValue (fuel + 1) (c :: rest) = parseNumber (c :: rest) := by
  simp only [isNumberChar, decide_eq_true_eq, List.mem_cons, List.not_mem_nil, or_false] at hc
  rcases hc with rfl | rfl | rfl | rfl | rfl | rfl | rfl | rfl | rfl | rfl | rfl | rfl | rfl | rfl | rfl
  all_goals rfl

/-- The text of a value begins with neither space nor a closing bracket. -/
theorem stringify_cons (value : Json) :
    ∃ c cs, stringify value = c :: cs ∧ isSpace c = false ∧ c ≠ ']' := by
  match value with
  | .null => exact ⟨'n', _, rfl, by decide, by decide⟩
  | .bool true => exact ⟨'t', _, rfl, by decide, by decide⟩
  | .bool false => exact ⟨'f', _, rfl, by decide, by decide⟩
  | .num n =>
    obtain ⟨c, cs, hcs, hc⟩ := n.exists_cons
    have hall : ['0', '1', '2', '3', '4', '5', '6', '7', '8', '9', '+', '-', '.', 'e', 'E'].all
        (fun c => !isSpace c && c ≠ ']') = true := by
      decide
    have hboth := List.all_eq_true.1 hall c (of_decide_eq_true hc)
    rw [Bool.and_eq_true, Bool.not_eq_true', decide_eq_true_eq] at hboth
    exact ⟨c, cs, hcs, hboth⟩
  | .str s => exact ⟨'"', _, rfl, by decide, by decide⟩
  | .arr [] => exact ⟨'[', _, rfl, by decide, by decide⟩
  | .arr (_ :: _) => exact ⟨'[', _, rfl, by decide, by decide⟩
  | .obj [] => exact ⟨'\x7b', _, rfl, by decide, by decide⟩
  | .obj (_ :: _) => exact ⟨'\x7b', _, rfl, by decide, by decide⟩

theorem endsNumber_cons {c : Char} (hc : isNumberChar c = false) (rest : List Char) :
    EndsNumber (c :: rest) := by
  intro c' hc'
  obtain rfl := Option.some.inj hc'
  exact hc

theorem endsNumber_stringifyItems (items : List Json) (rest : List Char) :
    EndsNumber (stringifyItems items ++ rest) := by
  cases items with
  | nil => exact endsNumber_cons (by decide) _
  | cons item items => exact endsNumber_cons (by decide) _

theorem endsNumber_stringifyMembers (members : List (List Char × Json)) (rest : List Char) :
    EndsNumber (stringifyMembers members ++ rest) := by
  cases members with
  | nil => exact endsNumber_cons (by decide) _
  | cons member members => exact endsNumber_cons (by decide) _

/-- After a bracket that no other one follows, the items are read. -/
theorem parseValue_bracket {c : Char} (hspace : isSpace c = false) (hc : c ≠ ']') (fuel : ℕ)
    (text : List Char) :
    parseValue (fuel + 1) ('[' :: c :: text) =
      (parseItems fuel (c :: text)).map fun (items, rest) => (.arr items, rest) := by
  have hbracket : skipSpace ('[' :: c :: text) = '[' :: c :: text := skipSpace_cons (by decide) _
  rw [parseValue, hbracket]
  simp only [skipSpace_cons hspace]
  split
  · rename_i heq
    exact absurd (List.cons.inj heq).1 hc
  · rfl

/-- After a brace and a quote, the members are read. -/
theorem parseValue_brace (fuel : ℕ) (text : List Char) :
    parseValue (fuel + 1) ('\x7b' :: '"' :: text) =
      (parseMembers fuel ('"' :: text)).map fun (members, rest) => (.obj members, rest) := rfl

/-- A member whose value is read, up to the comma or the brace. -/
theorem parseMembers_quote {key text rest : List Char} {value : Json} {fuel : ℕ}
    (hvalue : parseValue fuel text = some (value, rest)) :
    parseMembers (fuel + 1) (quote key ++ ':' :: text) =
      match skipSpace rest with
      | '\x7d' :: rest => some ([(key, value)], rest)
      | ',' :: rest =>
        (parseMembers fuel rest).map fun (members, rest) => ((key, value) :: members, rest)
      | _ => none := by
  have hkey : parseString (key.flatMap escapeChar ++ ['"'] ++ ':' :: text) = some (key, ':' :: text) := by
    rw [List.append_assoc, List.singleton_append, parseString_quote]
  have hquote : ∀ text, skipSpace ('"' :: text) = '"' :: text := skipSpace_cons (by decide)
  have hcolon : ∀ text, skipSpace (':' :: text) = ':' :: text := skipSpace_cons (by decide)
  rw [parseMembers, quote, List.cons_append, hquote]
  simp only [hkey, hcolon, hvalue]

/-- The fuel for a text that is not empty. -/
theorem exists_fuel (value : Json) {fuel : ℕ} (hfuel : (stringify value).length ≤ fuel) :
    ∃ n, fuel = n + 1 := by
  obtain ⟨first, others, hfirst, -⟩ := stringify_cons value
  refine ⟨fuel - 1, ?_⟩
  rw [hfirst, List.length_cons] at hfuel
  omega

mutual

/-- A value that is written is read, with as much fuel as its text is long. -/
theorem parseValue_stringify : ∀ (value : Json) (fuel : ℕ) (rest : List Char),
    (stringify value).length ≤ fuel → EndsNumber rest →
      parseValue fuel (stringify value ++ rest) = some (value, rest)
  | .null, fuel, rest, hfuel, _ => by
    obtain ⟨fuel, rfl⟩ := exists_fuel _ hfuel
    rfl
  | .bool true, fuel, rest, hfuel, _ => by
    obtain ⟨fuel, rfl⟩ := exists_fuel _ hfuel
    rfl
  | .bool false, fuel, rest, hfuel, _ => by
    obtain ⟨fuel, rfl⟩ := exists_fuel _ hfuel
    rfl
  | .num n, fuel, rest, hfuel, hrest => by
    obtain ⟨fuel, rfl⟩ := exists_fuel _ hfuel
    obtain ⟨c, cs, hcs, hc⟩ := n.exists_cons
    have hnumber := parseNumber_append n hrest
    show parseValue (fuel + 1) (n.text ++ rest) = _
    rw [hcs, List.cons_append] at hnumber ⊢
    rw [parseValue_number hc, hnumber]
  | .str s, fuel, rest, hfuel, _ => by
    obtain ⟨fuel, rfl⟩ := exists_fuel _ hfuel
    show (parseString (s.flatMap escapeChar ++ ['"'] ++ rest)).map _ = _
    rw [List.append_assoc, List.singleton_append, parseString_quote, Option.map_some]
  | .arr [], fuel, rest, hfuel, _ => by
    obtain ⟨fuel, rfl⟩ := exists_fuel _ hfuel
    rfl
  | .arr (item :: items), fuel, rest, hfuel, _ => by
    obtain ⟨fuel, rfl⟩ := exists_fuel _ hfuel
    simp only [stringify, List.length_cons] at hfuel
    -- The first item begins with neither a space nor a bracket that would end the array.
    have hitems := parseItems_stringify item items fuel rest (by omega)
    obtain ⟨c, cs, hcs, hspace, hc⟩ := stringify_cons item
    show parseValue (fuel + 1) ('[' :: (stringify item ++ stringifyItems items ++ rest)) = _
    rw [List.append_assoc]
    rw [hcs, List.cons_append] at hitems ⊢
    rw [parseValue_bracket hspace hc, hitems, Option.map_some]
  | .obj [], fuel, rest, hfuel, _ => by
    obtain ⟨fuel, rfl⟩ := exists_fuel _ hfuel
    rfl
  | .obj ((key, value) :: members), fuel, rest, hfuel, _ => by
    obtain ⟨fuel, rfl⟩ := exists_fuel _ hfuel
    simp only [stringify, List.length_cons] at hfuel
    have hmembers := parseMembers_stringify key value members fuel rest (by omega)
    have hbrace := parseValue_brace fuel (key.flatMap escapeChar ++ ['"'] ++
      ':' :: (stringify value ++ (stringifyMembers members ++ rest)))
    show parseValue (fuel + 1) ('\x7b' :: (quote key ++
      ':' :: (stringify value ++ stringifyMembers members) ++ rest)) = _
    rw [List.append_assoc, List.cons_append, List.append_assoc]
    rw [quote, List.cons_append] at hmembers ⊢
    rw [hbrace, hmembers, Option.map_some]
termination_by value => sizeOf value

theorem parseItems_stringify : ∀ (item : Json) (items : List Json) (fuel : ℕ) (rest : List Char),
    (stringify item ++ stringifyItems items).length ≤ fuel →
      parseItems fuel (stringify item ++ (stringifyItems items ++ rest)) = some (item :: items, rest)
  | item, [], fuel, rest, hfuel => by
    rw [List.length_append] at hfuel
    obtain ⟨fuel, rfl⟩ : ∃ n, fuel = n + 1 := exists_fuel item (by omega)
    simp only [stringifyItems, List.length_singleton] at hfuel
    have hitem := parseValue_stringify item fuel (stringifyItems [] ++ rest) (by omega)
      (endsNumber_stringifyItems [] rest)
    rw [parseItems, hitem]
    rfl
  | item, next :: items, fuel, rest, hfuel => by
    rw [List.length_append] at hfuel
    obtain ⟨fuel, rfl⟩ : ∃ n, fuel = n + 1 := exists_fuel item (by omega)
    simp only [stringifyItems, List.length_cons] at hfuel
    have hitem := parseValue_stringify item fuel (stringifyItems (next :: items) ++ rest) (by omega)
      (endsNumber_stringifyItems (next :: items) rest)
    have hitems := parseItems_stringify next items fuel rest (by omega)
    rw [parseItems, hitem]
    show (parseItems fuel (stringify next ++ stringifyItems items ++ rest)).map _ = _
    rw [List.append_assoc, hitems, Option.map_some]
termination_by item items => sizeOf item + sizeOf items

theorem parseMembers_stringify : ∀ (key : List Char) (value : Json)
    (members : List (List Char × Json)) (fuel : ℕ) (rest : List Char),
    (quote key ++ ':' :: (stringify value ++ stringifyMembers members)).length ≤ fuel →
      parseMembers fuel (quote key ++ ':' :: (stringify value ++ (stringifyMembers members ++ rest))) =
        some ((key, value) :: members, rest)
  | key, value, [], fuel, rest, hfuel => by
    rw [List.length_append, List.length_cons, List.length_append] at hfuel
    obtain ⟨fuel, rfl⟩ : ∃ n, fuel = n + 1 := exists_fuel value (by omega)
    have hvalue := parseValue_stringify value fuel (stringifyMembers [] ++ rest) (by omega)
      (endsNumber_stringifyMembers [] rest)
    rw [parseMembers_quote hvalue]
    rfl
  | key, value, (next, nextValue) :: members, fuel, rest, hfuel => by
    rw [List.length_append, List.length_cons, List.length_append] at hfuel
    obtain ⟨fuel, rfl⟩ : ∃ n, fuel = n + 1 := exists_fuel value (by omega)
    have hvalue := parseValue_stringify value fuel
      (stringifyMembers ((next, nextValue) :: members) ++ rest) (by omega)
      (endsNumber_stringifyMembers _ rest)
    have hlength : (quote next ++
        ':' :: (stringify nextValue ++ stringifyMembers members)).length ≤ fuel := by
      simp only [stringifyMembers, List.length_cons] at hfuel
      omega
    have hmembers := parseMembers_stringify next nextValue members fuel rest hlength
    rw [parseMembers_quote hvalue]
    show (parseMembers fuel (quote next ++
      ':' :: (stringify nextValue ++ stringifyMembers members) ++ rest)).map _ = _
    rw [List.append_assoc, List.cons_append, List.append_assoc, hmembers, Option.map_some]
termination_by _ value members => sizeOf value + sizeOf members

end

/-- What is written is read. -/
theorem parse_stringify (value : Json) : parse (stringify value) = some value := by
  have hvalue := parseValue_stringify value ((stringify value).length + 1) [] (by omega) nofun
  rw [List.append_nil] at hvalue
  unfold parse
  rw [hvalue]
  rfl

/-- A value that is read as a string is the string between quotes. -/
theorem parseValue_eq_str {text s rest : List Char} {fuel : ℕ}
    (h : parseValue fuel text = some (.str s, rest)) :
    ∃ quoted, skipSpace text = '"' :: quoted ∧ parseString quoted = some (s, rest) := by
  cases fuel with
  | zero => cases h
  | succ fuel =>
    unfold parseValue at h
    split at h
    · cases h
    · cases h
    · cases h
    · rename_i quoted hquoted
      obtain ⟨⟨s', rest'⟩, hs', heq⟩ := Option.map_eq_some_iff.1 h
      cases heq
      exact ⟨quoted, hquoted, hs'⟩
    · split at h
      · cases h
      · obtain ⟨_, -, heq⟩ := Option.map_eq_some_iff.1 h
        cases heq
    · split at h
      · cases h
      · obtain ⟨_, -, heq⟩ := Option.map_eq_some_iff.1 h
        cases heq
    · unfold parseNumber at h
      split_ifs at h
      cases h

/-- The text of a string is longer than the string. -/
theorem length_lt_of_parse_str {text s : List Char} (h : parse text = some (.str s)) :
    s.length < text.length := by
  unfold parse at h
  split at h
  · cases h
  · rename_i value rest hvalue
    split_ifs at h
    obtain rfl := Option.some.inj h
    obtain ⟨quoted, hquoted, hs⟩ := parseValue_eq_str hvalue
    have hspace : (skipSpace text).length ≤ text.length := (List.dropWhile_suffix _).length_le
    have hlt := length_of_parseString hs
    rw [hquoted, List.length_cons] at hspace
    omega

end AlsaqiBackend.Lib
