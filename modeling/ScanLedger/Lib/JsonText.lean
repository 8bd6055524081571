/-
# The text of a JSON value

A JSON value is written in ASCII, with the blanks that a style puts after commas, colons
and brackets: characters beyond it, and those that cannot stand in a string, are escaped
by their UTF-16 code units, so that no line breaks but those of the style are in the text
(`printable_write`). The reader takes any JSON text: blanks wherever they may stand and
every escape. What was written is read back (`read_write`), whatever the style. The text
of a number with a fraction or an exponent, and its value, are a parameter of both, and
such a number is read back if its text has that form and that value (`Style.Reads`).

Key definitions: `JsonText.Style`, `Json.write`, `JsonText.read`, `FloatText`,
`Style.Reads`, `Json.Exact`.
Key theorems: `JsonText.readString_quote`, `JsonText.readNumber_numberText`, `JsonText.read_write`,
`JsonText.printable_write`.
-/
import Mathlib.Data.List.TakeWhile
import Mathlib.Data.Nat.Digits.Defs
import ScanLedger.Lib.Json

namespace JsonText

/-! ### Writing -/

/-- A blank between the parts of a text. -/
def isBlank (c : Char) : Bool := c == ' ' || c == '\n' || c == '\t' || c == '\r'

/-- What a style puts after a colon, after a comma, and where a line may be broken at a
depth; and how it writes a number that is no integer. -/
structure Style where
  afterColon : List Char
  afterComma : List Char
  newline : ℕ → List Char
  float : FloatValue → List Char
  blank_afterColon : ∀ c ∈ afterColon, isBlank c = true
  blank_afterComma : ∀ c ∈ afterComma, isBlank c = true
  blank_newline : ∀ depth, ∀ c ∈ newline depth, isBlank c = true

theorem blank_nil : ∀ c ∈ [], isBlank c = true := fun _ hc => absurd hc List.not_mem_nil

theorem blank_space : ∀ c ∈ [' '], isBlank c = true := fun c hc => by
  rw [List.mem_singleton.mp hc]
  rfl

/-- Four hexadecimal digits. -/
def hex4 (n : ℕ) : List Char :=
  [Nat.digitChar (n / 4096 % 16), Nat.digitChar (n / 256 % 16), Nat.digitChar (n / 16 % 16),
    Nat.digitChar (n % 16)]

def unitText (n : ℕ) : List Char := '\\' :: 'u' :: hex4 n

/-- A character as it stands in a string. -/
def escape (c : Char) : List Char :=
  if c = '"' then ['\\', '"']
  else if c = '\\' then ['\\', '\\']
  else if c = '\n' then ['\\', 'n']
  else if c = '\r' then ['\\', 'r']
  else if c = '\t' then ['\\', 't']
  else if c = '\x0c' then ['\\', 'f']
  else if c = '\x08' then ['\\', 'b']
  else if ' ' ≤ c ∧ c ≤ '~' then [c]
  else if c.toNat < 0x10000 then unitText c.toNat
  else unitText (0xd800 + (c.toNat - 0x10000) / 0x400) ++
    unitText (0xdc00 + (c.toNat - 0x10000) % 0x400)

def quote (s : String) : List Char := '"' :: s.toList.flatMap escape ++ ['"']

end JsonText

open JsonText

variable (style : Style)

mutual

/-- The text of a value at a depth. -/
def Json.write (depth : ℕ) : Json → List Char
  | .null => ['n', 'u', 'l', 'l']
  | .bool true => ['t', 'r', 'u', 'e']
  | .bool false => ['f', 'a', 'l', 's', 'e']
  | .int n => (toString n).toList
  | .float x => style.float x
  | .str s => quote s
  | .arr .nil => ['[', ']']
  | .arr (.cons item rest) =>
    '[' :: (style.newline (depth + 1) ++ item.write (depth + 1) ++ rest.write depth)
  | .obj .nil => ['\x7b', '\x7d']
  | .obj (.cons name value rest) =>
    '\x7b' :: (style.newline (depth + 1) ++ quote name ++ ':' :: style.afterColon ++
      value.write (depth + 1) ++ rest.write depth)

/-- The items that follow, and the bracket that closes them. -/
def JsonItems.write (depth : ℕ) : JsonItems → List Char
  | .nil => style.newline depth ++ [']']
  | .cons item rest =>
    ',' :: (style.afterComma ++ style.newline (depth + 1) ++ item.write (depth + 1) ++
      rest.write depth)

def JsonFields.write (depth : ℕ) : JsonFields → List Char
  | .nil => style.newline depth ++ ['\x7d']
  | .cons name value rest =>
    ',' :: (style.afterComma ++ style.newline (depth + 1) ++ quote name ++ ':' ::
      style.afterColon ++ value.write (depth + 1) ++ rest.write depth)

end

namespace JsonText

/-! ### Reading -/

def skip (cs : List Char) : List Char := cs.dropWhile isBlank

/-- The value of a hexadecimal digit. -/
def hexValue (c : Char) : Option ℕ :=
  if c.isDigit then some (c.toNat - 48)
  else if 'a' ≤ c ∧ c ≤ 'f' then some (c.toNat - 87)
  else if 'A' ≤ c ∧ c ≤ 'F' then some (c.toNat - 55)
  else none

/-- A piece of a string: a character, or a code unit that was escaped. -/
inductive Piece
  | char (c : Char)
  | unit (n : ℕ)

/-- What a letter after a backslash stands for. -/
def unescape (c : Char) : Option Char :=
  if c = '"' ∨ c = '\\' ∨ c = '/' then some c
  else if c = 'n' then some '\n'
  else if c = 'r' then some '\r'
  else if c = 't' then some '\t'
  else if c = 'f' then some '\x0c'
  else if c = 'b' then some '\x08'
  else none

def readUnit : List Char → Option (ℕ × List Char)
  | a :: b :: c :: d :: rest => do
    let a ← hexValue a
    let b ← hexValue b
    let c ← hexValue c
    let d ← hexValue d
    return (4096 * a + 256 * b + 16 * c + d, rest)
  | _ => none

def readPiece : List Char → Option (Piece × List Char)
  | [] => none
  | c :: rest =>
    if c = '\\' then match rest with
      | [] => none
      | d :: rest =>
        if d = 'u' then (readUnit rest).map fun (n, rest) => (.unit n, rest)
        else (unescape d).map fun d => (.char d, rest)
    else if c.toNat < 0x20 then none
    else some (.char c, rest)

/-- The characters of a string up to its closing quote. A surrogate code unit stands
for a character with the one after it only. -/
def readChars : ℕ → List Char → Option (List Char × List Char)
  | 0, _ => none
  | fuel + 1, cs =>
    if cs.head? = some '"' then some ([], cs.tail)
    else do
      let (piece, rest) ← readPiece cs
      match piece with
      | .char c =>
        let (s, rest) ← readChars fuel rest
        return (c :: s, rest)
      | .unit n =>
        if n < 0xd800 ∨ 0xe000 ≤ n then
          let (s, rest) ← readChars fuel rest
          return (Char.ofNat n :: s, rest)
        else if n < 0xdc00 then match readPiece rest with
          | some (.unit m, rest) =>
            if 0xdc00 ≤ m ∧ m < 0xe000 then
              let (s, rest) ← readChars fuel rest
              return (Char.ofNat (0x10000 + 0x400 * (n - 0xd800) + (m - 0xdc00)) :: s, rest)
            else none
          | _ => none
        else none

/-- A string, after its opening quote. -/
def readString (cs : List Char) : Option (String × List Char) :=
  (readChars (cs.length + 1) cs).map fun (s, rest) => (String.ofList s, rest)

/-- The digits after a mark, with it, if there are any. -/
def readDigits (mark cs : List Char) : List Char × List Char :=
  if cs.takeWhile Char.isDigit = [] then ([], mark ++ cs)
  else (mark ++ cs.takeWhile Char.isDigit, cs.dropWhile Char.isDigit)

def readFraction : List Char → List Char × List Char
  | [] => ([], [])
  | c :: rest => if c = '.' then readDigits ['.'] rest else ([], c :: rest)

def readExponent : List Char → List Char × List Char
  | [] => ([], [])
  | c :: rest =>
    if c = 'e' ∨ c = 'E' then match rest with
      | [] => ([], [c])
      | d :: rest' =>
        if d = '+' ∨ d = '-' then readDigits [c, d] rest' else readDigits [c] rest
    else ([], c :: rest)

/-- A number, an integer if it has no fraction and no exponent. -/
def readNumber (parseFloat : List Char → FloatValue) (cs : List Char) :
    Option (Json × List Char) :=
  let negative := cs.head? == some '-'
  let body := if negative then cs.tail else cs
  let digits := body.takeWhile Char.isDigit
  if digits = [] ∨ (digits.head? = some '0' ∧ 1 < digits.length) then none
  else
    let (fraction, rest) := readFraction (body.dropWhile Char.isDigit)
    let (exponent, rest) := readExponent rest
    let n : ℤ := Nat.ofDigitChars 10 digits 0
    if fraction = [] ∧ exponent = [] then some (.int (if negative then -n else n), rest)
    else some (.float (parseFloat
      ((if negative then ['-'] else []) ++ digits ++ fraction ++ exponent)), rest)

/-- A word that is a value. -/
def readWord (word : List Char) (value : Json) (cs : List Char) : Option (Json × List Char) :=
  if word.isPrefixOf cs then some (value, cs.drop word.length) else none

/-- The name of a field, and the colon. -/
def readName (cs : List Char) : Option (String × List Char) :=
  match skip cs with
  | [] => none
  | c :: rest =>
    if c = '"' then do
      let (name, rest) ← readString rest
      match skip rest with
      | [] => none
      | d :: rest => if d = ':' then some (name, rest) else none
    else none

variable (parseFloat : List Char → FloatValue)

mutual

def readValue : ℕ → List Char → Option (Json × List Char)
  | 0, _ => none
  | fuel + 1, cs => match skip cs with
    | [] => none
    | c :: rest =>
      if c = '"' then (readString rest).map fun (s, rest) => (.str s, rest)
      else if c = '[' then
        if (skip rest).head? = some ']' then some (.arr .nil, (skip rest).tail)
        else do
          let (item, rest) ← readValue fuel rest
          let (items, rest) ← readItems fuel rest
          return (.arr (.cons item items), rest)
      else if c = '\x7b' then
        if (skip rest).head? = some '\x7d' then some (.obj .nil, (skip rest).tail)
        else do
          let (name, rest) ← readName rest
          let (value, rest) ← readValue fuel rest
          let (fields, rest) ← readFields fuel rest
          return (.obj (.cons name value fields), rest)
      else if c = 'n' then readWord ['u', 'l', 'l'] .null rest
      else if c = 't' then readWord ['r', 'u', 'e'] (.bool true) rest
      else if c = 'f' then readWord ['a', 'l', 's', 'e'] (.bool false) rest
      else readNumber parseFloat (c :: rest)

/-- What follows an item. -/
def readItems : ℕ → List Char → Option (JsonItems × List Char)
  | 0, _ => none
  | fuel + 1, cs => match skip cs with
    | [] => none
    | c :: rest =>
      if c = ']' then some (.nil, rest)
      else if c = ',' then do
        let (item, rest) ← readValue fuel rest
        let (items, rest) ← readItems fuel rest
        return (.cons item items, rest)
      else none

/-- What follows a field. -/
def readFields : ℕ → List Char → Option (JsonFields × List Char)
  | 0, _ => none
  | fuel + 1, cs => match skip cs with
    | [] => none
    | c :: rest =>
      if c = '\x7d' then some (.nil, rest)
      else if c = ',' then do
        let (name, rest) ← readName rest
        let (value, rest) ← readValue fuel rest
        let (fields, rest) ← readFields fuel rest
        return (.cons name value fields, rest)
      else none

end

/-- The value of a text, all of it. -/
def read (text : List Char) : Option Json :=
  match readValue parseFloat (text.length + 1) text with
  | some (value, rest) => if skip rest = [] then some value else none
  | none => none

/-! ### Strings -/

section

variable {n : ℕ} {c : Char} {rest : List Char}

theorem hexValue_digitChar : ∀ d < 16, hexValue (Nat.digitChar d) = some d := by
  decide

theorem readUnit_hex4 (hn : n < 65536) : readUnit (hex4 n ++ rest) = some (n, rest) := by
  have hdigit : ∀ m, hexValue (Nat.digitChar (m % 16)) = some (m % 16) := fun m =>
    hexValue_digitChar _ (Nat.mod_lt _ (by norm_num))
  simp only [hex4, List.cons_append, List.nil_append, readUnit, hdigit, Option.bind_eq_bind,
    Option.bind_some, Option.pure_def]
  refine congrArg some (Prod.ext ?_ rfl)
  dsimp only
  omega

theorem readPiece_unitText (hn : n < 65536) :
    readPiece (unitText n ++ rest) = some (.unit n, rest) := by
  simp only [unitText, List.cons_append, readPiece, readUnit_hex4 hn, if_true, Option.map_some]

/-- What is escaped with a letter, or not at all. -/
theorem readPiece_escape (h : escape c = [c] ∧ c ≠ '\\' ∧ 0x20 ≤ c.toNat ∨
      ∃ d, escape c = ['\\', d] ∧ d ≠ 'u' ∧ unescape d = some c) :
    readPiece (escape c ++ rest) = some (.char c, rest) := by
  rcases h with ⟨hescape, hc, hlow⟩ | ⟨d, hescape, hd, hunescape⟩
  · simp only [hescape, List.cons_append, List.nil_append, readPiece, if_neg hc,
      if_neg (not_lt.mpr hlow)]
  · simp only [hescape, List.cons_append, List.nil_append, readPiece, if_true, if_neg hd,
      hunescape, Option.map_some]

/-- How a character is escaped. -/
inductive Escaped (c : Char) : Prop
  | char (h : ∀ rest, readPiece (escape c ++ rest) = some (.char c, rest))
  | unit (h : escape c = unitText c.toNat) (hn : c.toNat < 0x10000)
  | pair (h : escape c = unitText (0xd800 + (c.toNat - 0x10000) / 0x400) ++
      unitText (0xdc00 + (c.toNat - 0x10000) % 0x400)) (hn : 0x10000 ≤ c.toNat)

theorem escaped (c : Char) : Escaped c := by
  by_cases hletter : c = '"' ∨ c = '\\' ∨ c = '\n' ∨ c = '\r' ∨ c = '\t' ∨ c = '\x0c' ∨ c = '\x08'
  · refine .char fun rest => readPiece_escape (Or.inr ?_)
    rcases hletter with rfl | rfl | rfl | rfl | rfl | rfl | rfl
    · exact ⟨'"', by decide⟩
    · exact ⟨'\\', by decide⟩
    · exact ⟨'n', by decide⟩
    · exact ⟨'r', by decide⟩
    · exact ⟨'t', by decide⟩
    · exact ⟨'f', by decide⟩
    · exact ⟨'b', by decide⟩
  · simp only [not_or] at hletter
    obtain ⟨hquote, hslash, hn, hr, ht, hf, hb⟩ := hletter
    have hescape : escape c = if ' ' ≤ c ∧ c ≤ '~' then [c]
        else if c.toNat < 0x10000 then unitText c.toNat
        else unitText (0xd800 + (c.toNat - 0x10000) / 0x400) ++
          unitText (0xdc00 + (c.toNat - 0x10000) % 0x400) := by
      unfold escape
      rw [if_neg hquote, if_neg hslash, if_neg hn, if_neg hr, if_neg ht, if_neg hf, if_neg hb]
    by_cases hplain : ' ' ≤ c ∧ c ≤ '~'
    · rw [if_pos hplain] at hescape
      refine .char fun rest => readPiece_escape (Or.inl ⟨hescape, hslash, ?_⟩)
      exact UInt32.le_iff_toNat_le.mp (Char.le_def.mp hplain.1)
    · rw [if_neg hplain] at hescape
      by_cases hlow : c.toNat < 0x10000
      · rw [if_pos hlow] at hescape
        exact .unit hescape hlow
      · rw [if_neg hlow] at hescape
        exact .pair hescape (Nat.le_of_not_lt hlow)

/-- No escaped character starts with a quote. -/
theorem head_escape (c : Char) : ∃ d cs, escape c = d :: cs ∧ d ≠ '"' := by
  unfold escape unitText
  split_ifs with hquote
  · exact ⟨_, _, rfl, by decide⟩
  · exact ⟨_, _, rfl, by decide⟩
  · exact ⟨_, _, rfl, by decide⟩
  · exact ⟨_, _, rfl, by decide⟩
  · exact ⟨_, _, rfl, by decide⟩
  · exact ⟨_, _, rfl, by decide⟩
  · exact ⟨_, _, rfl, by decide⟩
  · exact ⟨_, _, rfl, hquote⟩
  · exact ⟨_, _, rfl, by decide⟩
  · exact ⟨_, _, rfl, by decide⟩

theorem ofNat_toNat (c : Char) : Char.ofNat c.toNat = c := Char.ofNat_toNat c

/-- A character is no surrogate. -/
theorem toNat_valid (c : Char) : c.toNat < 0xd800 ∨ 0xe000 ≤ c.toNat ∧ c.toNat < 0x110000 := by
  have h := c.valid
  rcases h with h | ⟨h, h'⟩
  · exact Or.inl h
  · exact Or.inr ⟨h, h'⟩

theorem bind_eq_map (c : Char) (x : Option (List Char × List Char)) :
    (do
      let (s, rest) ← x
      return (c :: s, rest)) = x.map fun (s, rest) => (c :: s, rest) := by
  cases x <;> rfl

section

variable (fuel : ℕ) (rest : List Char)

/-- A character on its own. -/
theorem readChars_char {cs : List Char} (hhead : cs.head? ≠ some '"')
    (h : readPiece cs = some (.char c, rest)) :
    readChars (fuel + 1) cs = (readChars fuel rest).map fun (s, rest) => (c :: s, rest) := by
  rw [readChars, if_neg hhead, h]
  exact bind_eq_map c _

/-- A code unit that is no surrogate. -/
theorem readChars_unit {cs : List Char} (hhead : cs.head? ≠ some '"')
    (h : readPiece cs = some (.unit n, rest)) (hn : n < 0xd800 ∨ 0xe000 ≤ n) :
    readChars (fuel + 1) cs =
      (readChars fuel rest).map fun (s, rest) => (Char.ofNat n :: s, rest) := by
  rw [readChars, if_neg hhead, h]
  simp only [Option.bind_eq_bind, Option.bind_some]
  rw [if_pos hn]
  exact bind_eq_map _ _

/-- Two surrogates. -/
theorem readChars_pair {m : ℕ} {cs more : List Char} (hhead : cs.head? ≠ some '"')
    (h : readPiece cs = some (.unit n, more)) (hn : 0xd800 ≤ n ∧ n < 0xdc00)
    (h' : readPiece more = some (.unit m, rest)) (hm : 0xdc00 ≤ m ∧ m < 0xe000) :
    readChars (fuel + 1) cs = (readChars fuel rest).map fun (s, rest) =>
      (Char.ofNat (0x10000 + 0x400 * (n - 0xd800) + (m - 0xdc00)) :: s, rest) := by
  rw [readChars, if_neg hhead, h]
  simp only [Option.bind_eq_bind, Option.bind_some]
  rw [if_neg (by omega), if_pos hn.2, h']
  simp only
  rw [if_pos hm]
  exact bind_eq_map _ _

/-- An escaped character is read, and the string goes on. -/
theorem readChars_escape (c : Char) : readChars (fuel + 1) (escape c ++ rest) =
    (readChars fuel rest).map fun (s, rest) => (c :: s, rest) := by
  obtain ⟨d, cs, hd, hquote⟩ := head_escape c
  have hhead : (escape c ++ rest).head? ≠ some '"' := by
    rw [hd, List.cons_append, List.head?_cons]
    exact fun he => hquote (Option.some.inj he)
  have hvalid := toNat_valid c
  cases escaped c with
  | char h => exact readChars_char fuel rest hhead (h rest)
  | unit h hn =>
    have hread := readChars_unit fuel rest hhead (by rw [h, readPiece_unitText hn]) (by omega)
    rwa [ofNat_toNat] at hread
  | pair h hn =>
    have hhigh : 0xd800 + (c.toNat - 0x10000) / 0x400 < 65536 := by omega
    have hlow : 0xdc00 + (c.toNat - 0x10000) % 0x400 < 65536 := by omega
    have hnat : 0x10000 + 0x400 * (0xd800 + (c.toNat - 0x10000) / 0x400 - 0xd800) +
        (0xdc00 + (c.toNat - 0x10000) % 0x400 - 0xdc00) = c.toNat := by omega
    have hread := readChars_pair fuel rest hhead
      (by rw [h, List.append_assoc, readPiece_unitText hhigh]) (by omega)
      (readPiece_unitText hlow) (by omega)
    rwa [hnat, ofNat_toNat] at hread

end

theorem readChars_escaped (rest : List Char) : ∀ {fuel : ℕ} {s : List Char}, s.length < fuel →
    readChars fuel (s.flatMap escape ++ '"' :: rest) = some (s, rest)
  | fuel + 1, [], _ => by
    rw [List.flatMap_nil, List.nil_append, readChars, List.head?_cons, if_pos rfl, List.tail_cons]
  | fuel + 1, c :: s, h => by
    rw [List.flatMap_cons, List.append_assoc, readChars_escape,
      readChars_escaped rest (Nat.lt_of_succ_lt_succ h)]
    rfl

/-- A quoted string is read, up to its quote. -/
theorem readString_quote (s : String) (rest : List Char) :
    readString (s.toList.flatMap escape ++ '"' :: rest) = some (s, rest) := by
  have hlength : s.toList.length ≤ (s.toList.flatMap escape).length := by
    induction s.toList with
    | nil => exact Nat.le_refl 0
    | cons c cs ih =>
      obtain ⟨d, ds, hd, -⟩ := head_escape c
      rw [List.flatMap_cons, List.length_append, hd, List.length_cons, List.length_cons]
      omega
  unfold readString
  rw [readChars_escaped rest (by rw [List.length_append]; omega)]
  simp only [Option.map_some, String.ofList_toList]

end

/-! ### Numbers -/

/-- What cannot go on a number. -/
def Ends (rest : List Char) : Prop :=
  ∀ c ∈ rest.head?, c.isDigit = false ∧ c ≠ '.' ∧ c ≠ 'e' ∧ c ≠ 'E'

/-- Digits, one at least. -/
structure Digits (cs : List Char) : Prop where
  nonempty : cs ≠ []
  digit : ∀ c ∈ cs, c.isDigit = true

inductive Fraction : List Char → Prop
  | none : Fraction []
  | digits {cs : List Char} (h : Digits cs) : Fraction ('.' :: cs)

inductive Exponent : List Char → Prop
  | none : Exponent []
  | digits {e : Char} (he : e = 'e' ∨ e = 'E') {cs : List Char} (h : Digits cs) :
      Exponent (e :: cs)
  | signed {e sign : Char} (he : e = 'e' ∨ e = 'E') (hsign : sign = '+' ∨ sign = '-')
      {cs : List Char} (h : Digits cs) : Exponent (e :: sign :: cs)

/-- A number, as it is written. -/
def numberText (negative : Bool) (n : ℕ) (fraction exponent : List Char) : List Char :=
  (if negative then ['-'] else []) ++ Nat.toDigits 10 n ++ fraction ++ exponent

/-- The text of a number with a fraction or an exponent. -/
inductive FloatText : List Char → Prop
  | mk (negative : Bool) (n : ℕ) {fraction exponent : List Char} (hf : Fraction fraction)
      (he : Exponent exponent) (h : ¬ (fraction = [] ∧ exponent = [])) :
      FloatText (numberText negative n fraction exponent)

section

variable {rest : List Char}

theorem toList_toString (n : ℤ) : (toString n).toList =
    (if n < 0 then ['-'] else []) ++ Nat.toDigits 10 n.natAbs := by
  cases n with
  | ofNat n =>
    have htext : toString (Int.ofNat n) = toString n := rfl
    rw [htext, Nat.toString_eq_ofList_toDigits, String.toList_ofList]
    rfl
  | negSucc n =>
    have htext : toString (Int.negSucc n) = "-" ++ toString (n + 1) := rfl
    have hdigits : (toString (n + 1)).toList = Nat.toDigits 10 (n + 1) := by
      rw [Nat.toString_eq_ofList_toDigits, String.toList_ofList]
    rw [htext, String.toList_append, hdigits, if_pos (Int.negSucc_lt_zero n)]
    rfl

/-- Only the digits of zero start with a zero. -/
theorem head_toDigits (n : ℕ) (hn : n ≠ 0) : (Nat.toDigits 10 n).head? ≠ some '0' := by
  induction n using Nat.strongRecOn with
  | ind n ih =>
    rw [Nat.toDigits_eq_if (by norm_num)]
    split_ifs with hlt
    · rw [List.head?_cons, Ne, Option.some_inj, Nat.digitChar_eq_zero]
      exact hn
    · rw [List.head?_append_of_ne_nil _ Nat.toDigits_ne_nil]
      exact ih _ (by omega) (by omega)

theorem digits_toDigits (n : ℕ) : Digits (Nat.toDigits 10 n) :=
  ⟨Nat.toDigits_ne_nil, fun _ hc => Nat.isDigit_of_mem_toDigits (by norm_num) (by norm_num) hc⟩

/-- A dash is no digit. -/
theorem head_digits_ne_dash (n : ℕ) (rest : List Char) :
    (Nat.toDigits 10 n ++ rest).head? ≠ some '-' := by
  rw [List.head?_append_of_ne_nil _ Nat.toDigits_ne_nil]
  intro h
  have hdigit := Nat.isDigit_of_mem_toDigits (by norm_num) (by norm_num) (List.mem_of_head? h)
  cases hdigit

theorem takeWhile_digits {cs : List Char} (hcs : Digits cs)
    (h : ∀ c ∈ rest.head?, c.isDigit = false) :
    (cs ++ rest).takeWhile Char.isDigit = cs ∧ (cs ++ rest).dropWhile Char.isDigit = rest := by
  have hrest : rest.takeWhile Char.isDigit = [] ∧ rest.dropWhile Char.isDigit = rest := by
    cases rest with
    | nil => exact ⟨rfl, rfl⟩
    | cons c rest =>
      have hc := h c rfl
      exact ⟨List.takeWhile_cons_of_neg (by simp [hc]), List.dropWhile_cons_of_neg (by simp [hc])⟩
  rw [List.takeWhile_append_of_pos hcs.digit, List.dropWhile_append_of_pos hcs.digit, hrest.1,
    hrest.2, List.append_nil]
  exact ⟨rfl, rfl⟩

theorem readDigits_digits (mark : List Char) {cs : List Char} (hcs : Digits cs)
    (h : ∀ c ∈ rest.head?, c.isDigit = false) :
    readDigits mark (cs ++ rest) = (mark ++ cs, rest) := by
  obtain ⟨htake, hdrop⟩ := takeWhile_digits hcs h
  unfold readDigits
  rw [htake, hdrop, if_neg hcs.nonempty]

theorem readFraction_append {fraction : List Char} (hf : Fraction fraction)
    (h : ∀ c ∈ rest.head?, c.isDigit = false ∧ c ≠ '.') :
    readFraction (fraction ++ rest) = (fraction, rest) := by
  cases hf with
  | none =>
    cases rest with
    | nil => rfl
    | cons c rest => exact if_neg (h c rfl).2
  | digits hcs =>
    simp only [List.cons_append, readFraction, if_true]
    exact readDigits_digits ['.'] hcs fun c hc => (h c hc).1

theorem readExponent_append {exponent : List Char} (he : Exponent exponent) (h : Ends rest) :
    readExponent (exponent ++ rest) = (exponent, rest) := by
  cases he with
  | none =>
    cases rest with
    | nil => rfl
    | cons c rest => exact if_neg (not_or.mpr (h c rfl).2.2)
  | @digits e he cs hcs =>
    have hread := readDigits_digits [e] hcs fun c hc => (h c hc).1
    obtain ⟨d, ds, rfl⟩ := List.exists_cons_of_ne_nil hcs.nonempty
    have hd : ¬ (d = '+' ∨ d = '-') := by
      rintro (rfl | rfl) <;> exact absurd (hcs.digit _ List.mem_cons_self) (by decide)
    simp only [List.cons_append, readExponent, if_pos he, if_neg hd]
    exact hread
  | @signed e sign he hsign cs hcs =>
    simp only [List.cons_append, readExponent, if_pos he, if_pos hsign]
    exact readDigits_digits [e, sign] hcs fun c hc => (h c hc).1

/-- No digit and no point starts an exponent, or what ends a number. -/
theorem head_exponent {exponent : List Char} (he : Exponent exponent) (h : Ends rest) :
    ∀ c ∈ (exponent ++ rest).head?, c.isDigit = false ∧ c ≠ '.' := by
  have hmark : ∀ e : Char, e = 'e' ∨ e = 'E' → e.isDigit = false ∧ e ≠ '.' := by
    rintro e (rfl | rfl) <;> decide
  intro c hc
  cases he with
  | none => exact ⟨(h c hc).1, (h c hc).2.1⟩
  | digits he => exact Option.some.inj hc ▸ hmark _ he
  | signed he => exact Option.some.inj hc ▸ hmark _ he

/-- No digit starts a fraction, or what follows it. -/
theorem head_fraction {fraction exponent : List Char} (hf : Fraction fraction)
    (he : Exponent exponent) (h : Ends rest) :
    ∀ c ∈ (fraction ++ (exponent ++ rest)).head?, c.isDigit = false := by
  intro c hc
  cases hf with
  | none => exact (head_exponent he h c hc).1
  | digits => exact Option.some.inj hc ▸ rfl

/-- A number is read in its parts, if nothing goes on with it. -/
theorem readNumber_numberText (parseFloat : List Char → FloatValue) (negative : Bool) (n : ℕ)
    {fraction exponent : List Char} (hf : Fraction fraction) (he : Exponent exponent)
    (h : Ends rest) : readNumber parseFloat (numberText negative n fraction exponent ++ rest) =
      if fraction = [] ∧ exponent = [] then some (.int (if negative then -n else n), rest)
      else some (.float (parseFloat (numberText negative n fraction exponent)), rest) := by
  obtain ⟨htake, hdrop⟩ := takeWhile_digits (digits_toDigits n) (head_fraction hf he h)
  have hzero : ¬ (Nat.toDigits 10 n = [] ∨
      ((Nat.toDigits 10 n).head? = some '0' ∧ 1 < (Nat.toDigits 10 n).length)) := by
    rintro (hnil | ⟨hhead, hlong⟩)
    · exact Nat.toDigits_ne_nil hnil
    · by_cases h0 : n = 0
      · rw [h0] at hlong
        exact absurd hlong (by decide)
      · exact head_toDigits _ h0 hhead
  have hfraction := readFraction_append hf (head_exponent he h)
  have hexponent := readExponent_append he h
  unfold numberText readNumber
  cases negative with
  | true =>
    simp only [if_true, List.cons_append, List.nil_append, List.append_assoc, List.head?_cons,
      beq_self_eq_true, List.tail_cons, htake, hdrop, if_neg hzero, hfraction, hexponent,
      Nat.ofDigitChars_ten_toDigits]
  | false =>
    have hdash : ((Nat.toDigits 10 n ++ (fraction ++ (exponent ++ rest))).head? == some '-') =
        false := beq_eq_false_iff_ne.mpr (head_digits_ne_dash _ _)
    simp only [Bool.false_eq_true, if_false, List.nil_append, List.append_assoc, hdash, htake,
      hdrop, if_neg hzero, hfraction, hexponent, Nat.ofDigitChars_ten_toDigits]

theorem toString_eq_numberText (n : ℤ) :
    (toString n).toList = numberText (decide (n < 0)) n.natAbs [] [] := by
  rw [toList_toString]
  simp only [numberText, List.append_nil, decide_eq_true_eq]

/-- An integer is read, if nothing goes on with it. -/
theorem readNumber_int (parseFloat : List Char → FloatValue) (n : ℤ) (h : Ends rest) :
    readNumber parseFloat ((toString n).toList ++ rest) = some (.int n, rest) := by
  rw [toString_eq_numberText, readNumber_numberText parseFloat _ _ .none .none h, if_pos ⟨rfl, rfl⟩]
  refine congrArg (fun n => some (Json.int n, rest)) ?_
  by_cases hneg : n < 0
  · rw [if_pos (decide_eq_true hneg), Int.ofNat_natAbs_of_nonpos hneg.le, neg_neg]
  · rw [if_neg (by rwa [decide_eq_true_eq]), Int.natAbs_of_nonneg (not_lt.mp hneg)]

/-- A number with a fraction or an exponent is read by its text. -/
theorem readNumber_float (parseFloat : List Char → FloatValue) {cs : List Char}
    (hcs : FloatText cs) (h : Ends rest) :
    readNumber parseFloat (cs ++ rest) = some (.float (parseFloat cs), rest) := by
  obtain ⟨negative, n, hf, he, hparts⟩ := hcs
  rw [readNumber_numberText parseFloat negative n hf he h, if_neg hparts]

end

/-! ### Blanks -/

section

variable {blanks cs : List Char} {c : Char} {fuel : ℕ} {parseFloat : List Char → FloatValue}

theorem skip_append (h : ∀ c ∈ blanks, isBlank c = true) : skip (blanks ++ cs) = skip cs :=
  List.dropWhile_append_of_pos h

theorem skip_cons (h : isBlank c = false) : skip (c :: cs) = c :: cs :=
  List.dropWhile_cons_of_neg (by simp [h])

theorem readValue_skip (h : ∀ c ∈ blanks, isBlank c = true) :
    readValue parseFloat fuel (blanks ++ cs) = readValue parseFloat fuel cs := by
  cases fuel with
  | zero => rfl
  | succ fuel => simp only [readValue, skip_append h]

theorem readItems_skip (h : ∀ c ∈ blanks, isBlank c = true) :
    readItems parseFloat fuel (blanks ++ cs) = readItems parseFloat fuel cs := by
  cases fuel with
  | zero => rfl
  | succ fuel => simp only [readItems, skip_append h]

theorem readFields_skip (h : ∀ c ∈ blanks, isBlank c = true) :
    readFields parseFloat fuel (blanks ++ cs) = readFields parseFloat fuel cs := by
  cases fuel with
  | zero => rfl
  | succ fuel => simp only [readFields, skip_append h]

/-- A name and its colon, after blanks. -/
theorem readName_quote (h : ∀ c ∈ blanks, isBlank c = true) (name : String) (rest : List Char) :
    readName (blanks ++ (quote name ++ ':' :: rest)) = some (name, rest) := by
  have hskip : skip (blanks ++ (quote name ++ ':' :: rest)) =
      '"' :: (name.toList.flatMap escape ++ '"' :: ':' :: rest) := by
    rw [skip_append h, quote, List.cons_append, List.cons_append, skip_cons (by decide),
      List.append_assoc]
    rfl
  unfold readName
  rw [hskip]
  simp only [if_true, readString_quote, Option.bind_eq_bind, Option.bind_some]
  rw [skip_cons (by decide)]
  simp only [if_true]

end

end JsonText

/-! ### Values -/

mutual

/-- Every number that is no integer is one of these. -/
def Json.Exact (P : FloatValue → Prop) : Json → Prop
  | .null | .bool _ | .int _ | .str _ => True
  | .float x => P x
  | .arr items => items.Exact P
  | .obj fields => fields.Exact P

def JsonItems.Exact (P : FloatValue → Prop) : JsonItems → Prop
  | .nil => True
  | .cons item rest => item.Exact P ∧ rest.Exact P

def JsonFields.Exact (P : FloatValue → Prop) : JsonFields → Prop
  | .nil => True
  | .cons _ value rest => value.Exact P ∧ rest.Exact P

end

namespace Json

variable {P : FloatValue → Prop}

theorem exact_optional {α : Type} {value : α → Json} {o : Option α}
    (h : ∀ a ∈ o, (value a).Exact P) : (optional value o).Exact P := by
  cases o with
  | none => trivial
  | some a => exact h a rfl

theorem exact_array {items : List Json} (h : ∀ item ∈ items, item.Exact P) :
    (array items).Exact P := by
  change (items.foldr JsonItems.cons .nil).Exact P
  induction items with
  | nil => trivial
  | cons item items ih =>
    obtain ⟨hitem, hitems⟩ := List.forall_mem_cons.mp h
    exact ⟨hitem, ih hitems⟩

theorem exact_strs (items : List String) : (strs items).Exact P :=
  exact_array fun item hitem => by
    obtain ⟨s, -, rfl⟩ := List.mem_map.mp hitem
    trivial

end Json

mutual

/-- How many values there are, one more for each that is empty. -/
def Json.size : Json → ℕ
  | .null | .bool _ | .int _ | .float _ | .str _ => 1
  | .arr items => items.size
  | .obj fields => fields.size

def JsonItems.size : JsonItems → ℕ
  | .nil => 1
  | .cons item rest => item.size + rest.size + 1

def JsonFields.size : JsonFields → ℕ
  | .nil => 1
  | .cons _ value rest => value.size + rest.size + 1

end

namespace JsonText

section

/-- The text that a style writes for a number reads as that number. -/
structure Style.Reads (style : Style) (parseFloat : List Char → FloatValue) (x : FloatValue) :
    Prop where
  text : FloatText (style.float x)
  value : parseFloat (style.float x) = x

variable {style : Style} {parseFloat : List Char → FloatValue}

theorem head_numberText (negative : Bool) (n : ℕ) (fraction exponent : List Char) :
    ∃ c cs, numberText negative n fraction exponent = c :: cs ∧ (c = '-' ∨ c.isDigit = true) := by
  unfold numberText
  cases negative with
  | true => exact ⟨_, _, rfl, Or.inl rfl⟩
  | false =>
    obtain ⟨c, cs, hdigits⟩ := List.exists_cons_of_ne_nil (digits_toDigits n).nonempty
    rw [hdigits]
    exact ⟨c, _, rfl, Or.inr ((digits_toDigits n).digit c (hdigits ▸ List.mem_cons_self))⟩

theorem head_toString (n : ℤ) :
    ∃ c cs, (toString n).toList = c :: cs ∧ (c = '-' ∨ c.isDigit = true) := by
  rw [toString_eq_numberText]
  exact head_numberText _ _ _ _

theorem head_floatText {cs : List Char} (h : FloatText cs) :
    ∃ c cs', cs = c :: cs' ∧ (c = '-' ∨ c.isDigit = true) := by
  obtain ⟨negative, n, _, _, _⟩ := h
  exact head_numberText _ _ _ _

/-- The first character of a number is that of nothing else. -/
theorem number_head {c : Char} (h : c = '-' ∨ c.isDigit = true) :
    isBlank c = false ∧ c ≠ ']' ∧ c ≠ '"' ∧ c ≠ '[' ∧ c ≠ '\x7b' ∧ c ≠ 'n' ∧ c ≠ 't' ∧ c ≠ 'f' := by
  rcases h with rfl | h
  · decide
  · have hne : ∀ d : Char, d.isDigit = false → c ≠ d := fun d hd he => by
      rw [he, hd] at h
      cases h
    refine ⟨?_, hne _ rfl, hne _ rfl, hne _ rfl, hne _ rfl, hne _ rfl, hne _ rfl, hne _ rfl⟩
    simp only [isBlank, Bool.or_eq_false_iff, beq_eq_false_iff_ne]
    exact ⟨⟨⟨hne _ rfl, hne _ rfl⟩, hne _ rfl⟩, hne _ rfl⟩

variable (style) in
/-- The first character of a value. -/
theorem head_write {value : Json} (h : value.Exact (style.Reads parseFloat)) (depth : ℕ) :
    ∃ c cs, value.write style depth = c :: cs ∧ isBlank c = false ∧ c ≠ ']' := by
  cases value with
  | null => exact ⟨_, _, rfl, by decide⟩
  | bool b => cases b <;> exact ⟨_, _, rfl, by decide⟩
  | int n =>
    obtain ⟨c, cs, htext, hc⟩ := head_toString n
    exact ⟨c, cs, htext, (number_head hc).1, (number_head hc).2.1⟩
  | float x =>
    obtain ⟨c, cs, htext, hc⟩ := head_floatText h.text
    exact ⟨c, cs, htext, (number_head hc).1, (number_head hc).2.1⟩
  | str s => exact ⟨_, _, rfl, by decide⟩
  | arr items => cases items <;> exact ⟨_, _, rfl, by decide⟩
  | obj fields => cases fields <;> exact ⟨_, _, rfl, by decide⟩

theorem ends_cons {c : Char} {cs : List Char}
    (hc : c.isDigit = false ∧ c ≠ '.' ∧ c ≠ 'e' ∧ c ≠ 'E') : Ends (c :: cs) := by
  intro d hd
  cases hd
  exact hc

/-- A blank does not go on a number. -/
theorem ends_of_blank {blanks : List Char} (hblank : ∀ c ∈ blanks, isBlank c = true) {c : Char}
    {cs : List Char} (hc : c.isDigit = false ∧ c ≠ '.' ∧ c ≠ 'e' ∧ c ≠ 'E') :
    Ends (blanks ++ c :: cs) := by
  cases blanks with
  | nil => exact ends_cons hc
  | cons b blanks =>
    intro d hd
    obtain rfl : b = d := Option.some.inj hd
    have hb := hblank b List.mem_cons_self
    simp only [isBlank, Bool.or_eq_true, beq_iff_eq] at hb
    rcases hb with ((rfl | rfl) | rfl) | rfl <;> decide

theorem ends_items (items : JsonItems) (depth : ℕ) (rest : List Char) :
    Ends (items.write style depth ++ rest) := by
  cases items with
  | nil =>
    rw [JsonItems.write, List.append_assoc]
    exact ends_of_blank (style.blank_newline depth) (by decide)
  | cons item items =>
    rw [JsonItems.write, List.cons_append]
    exact ends_cons (by decide)

theorem ends_fields (fields : JsonFields) (depth : ℕ) (rest : List Char) :
    Ends (fields.write style depth ++ rest) := by
  cases fields with
  | nil =>
    rw [JsonFields.write, List.append_assoc]
    exact ends_of_blank (style.blank_newline depth) (by decide)
  | cons name value fields =>
    rw [JsonFields.write, List.cons_append]
    exact ends_cons (by decide)

/-! How a value is read is seen from its first character. -/

theorem readValue_bracket (fuel : ℕ) (rest : List Char) :
    readValue parseFloat (fuel + 1) ('[' :: rest) =
      if (skip rest).head? = some ']' then some (.arr .nil, (skip rest).tail)
      else do
        let (item, rest) ← readValue parseFloat fuel rest
        let (items, rest) ← readItems parseFloat fuel rest
        return (.arr (.cons item items), rest) := by
  simp only [readValue]
  rw [skip_cons (by decide)]
  exact (if_neg (by decide)).trans (if_pos rfl)

theorem readValue_brace (fuel : ℕ) (rest : List Char) :
    readValue parseFloat (fuel + 1) ('\x7b' :: rest) =
      if (skip rest).head? = some '\x7d' then some (.obj .nil, (skip rest).tail)
      else do
        let (name, rest) ← readName rest
        let (value, rest) ← readValue parseFloat fuel rest
        let (fields, rest) ← readFields parseFloat fuel rest
        return (.obj (.cons name value fields), rest) := by
  simp only [readValue]
  rw [skip_cons (by decide)]
  exact (if_neg (by decide)).trans ((if_neg (by decide)).trans (if_pos rfl))

theorem readValue_number (fuel : ℕ) {cs rest : List Char} {value : Json}
    (hhead : ∃ c cs', cs = c :: cs' ∧ (c = '-' ∨ c.isDigit = true))
    (hread : readNumber parseFloat (cs ++ rest) = some (value, rest)) :
    readValue parseFloat (fuel + 1) (cs ++ rest) = some (value, rest) := by
  obtain ⟨c, cs, rfl, hc⟩ := hhead
  obtain ⟨hblank, -, hquote, hbracket, hbrace, hn, ht, hf⟩ := number_head hc
  rw [List.cons_append] at hread ⊢
  simp only [readValue]
  rw [skip_cons hblank]
  simp only [if_neg hquote, if_neg hbracket, if_neg hbrace, if_neg hn, if_neg ht, if_neg hf, hread]

mutual

/-- A value that was written is read, and what follows it is left. -/
theorem readValue_write : ∀ (value : Json) {fuel depth : ℕ} {rest : List Char},
    value.Exact (style.Reads parseFloat) → value.size ≤ fuel → Ends rest →
    readValue parseFloat fuel (value.write style depth ++ rest) = some (value, rest)
  | .null, fuel + 1, depth, rest, _, _, _ => by
    simp only [Json.write, List.cons_append, List.nil_append, readValue]
    rw [skip_cons (by decide)]
    simp [readWord]
  | .bool true, fuel + 1, depth, rest, _, _, _ => by
    simp only [Json.write, List.cons_append, List.nil_append, readValue]
    rw [skip_cons (by decide)]
    simp [readWord]
  | .bool false, fuel + 1, depth, rest, _, _, _ => by
    simp only [Json.write, List.cons_append, List.nil_append, readValue]
    rw [skip_cons (by decide)]
    simp [readWord]
  | .int n, fuel + 1, depth, rest, _, _, h =>
    readValue_number fuel (head_toString n) (readNumber_int parseFloat n h)
  | .float x, fuel + 1, depth, rest, hx, _, h => by
    have hread := readNumber_float parseFloat hx.text h
    rw [hx.value] at hread
    exact readValue_number fuel (head_floatText hx.text) hread
  | .str s, fuel + 1, depth, rest, _, _, _ => by
    simp only [Json.write, quote, List.cons_append, readValue]
    rw [skip_cons (by decide)]
    simp only [if_true, List.append_assoc, List.cons_append, List.nil_append, readString_quote,
      Option.map_some]
  | .arr .nil, fuel + 1, depth, rest, _, _, _ => by
    simp only [Json.write, List.cons_append, List.nil_append]
    rw [readValue_bracket, skip_cons (by decide), List.head?_cons, if_pos rfl, List.tail_cons]
  | .arr (.cons item items), fuel + 1, depth, rest, hexact, hfuel, _ => by
    simp only [Json.size, JsonItems.size] at hfuel
    obtain ⟨hitem, hitems⟩ := hexact
    obtain ⟨c, cs, hwrite, hblank, hc⟩ := head_write style hitem (depth + 1)
    simp only [Json.write, List.cons_append, List.append_assoc]
    rw [readValue_bracket, skip_append (style.blank_newline _), if_neg, readValue_skip
      (style.blank_newline _), readValue_write item hitem (by omega) (ends_items items depth rest)]
    · simp only [Option.bind_eq_bind, Option.bind_some]
      rw [readItems_write items hitems (by omega)]
      rfl
    · rw [hwrite, List.cons_append, skip_cons hblank]
      exact fun he => hc (Option.some.inj he)
  | .obj .nil, fuel + 1, depth, rest, _, _, _ => by
    simp only [Json.write, List.cons_append, List.nil_append]
    rw [readValue_brace, skip_cons (by decide), List.head?_cons, if_pos rfl, List.tail_cons]
  | .obj (.cons name value fields), fuel + 1, depth, rest, hexact, hfuel, _ => by
    simp only [Json.size, JsonFields.size] at hfuel
    obtain ⟨hvalue, hfields⟩ := hexact
    simp only [Json.write, List.cons_append, List.append_assoc]
    rw [readValue_brace, skip_append (style.blank_newline _), if_neg,
      readName_quote (style.blank_newline _)]
    · simp only [Option.bind_eq_bind, Option.bind_some]
      rw [readValue_skip style.blank_afterColon,
        readValue_write value hvalue (by omega) (ends_fields fields depth rest)]
      simp only [Option.bind_some]
      rw [readFields_write fields hfields (by omega)]
      rfl
    · rw [quote, List.cons_append, List.cons_append, skip_cons (by decide)]
      exact fun he => absurd (Option.some.inj he) (by decide)

theorem readItems_write : ∀ (items : JsonItems) {fuel depth : ℕ} {rest : List Char},
    items.Exact (style.Reads parseFloat) → items.size ≤ fuel →
    readItems parseFloat fuel (items.write style depth ++ rest) = some (items, rest)
  | .nil, fuel + 1, depth, rest, _, _ => by
    rw [JsonItems.write, List.append_assoc, readItems_skip (style.blank_newline _),
      List.singleton_append]
    simp only [readItems]
    rw [skip_cons (by decide)]
    exact if_pos rfl
  | .cons item items, fuel + 1, depth, rest, hexact, hfuel => by
    simp only [JsonItems.size] at hfuel
    obtain ⟨hitem, hitems⟩ := hexact
    simp only [JsonItems.write, List.cons_append, List.append_assoc, readItems]
    rw [skip_cons (by decide)]
    refine ((if_neg (by decide)).trans (if_pos rfl)).trans ?_
    rw [readValue_skip style.blank_afterComma, readValue_skip (style.blank_newline _),
      readValue_write item hitem (by omega) (ends_items items depth rest)]
    simp only [Option.bind_eq_bind, Option.bind_some]
    rw [readItems_write items hitems (by omega)]
    rfl

theorem readFields_write : ∀ (fields : JsonFields) {fuel depth : ℕ} {rest : List Char},
    fields.Exact (style.Reads parseFloat) → fields.size ≤ fuel →
    readFields parseFloat fuel (fields.write style depth ++ rest) = some (fields, rest)
  | .nil, fuel + 1, depth, rest, _, _ => by
    rw [JsonFields.write, List.append_assoc, readFields_skip (style.blank_newline _),
      List.singleton_append]
    simp only [readFields]
    rw [skip_cons (by decide)]
    exact if_pos rfl
  | .cons name value fields, fuel + 1, depth, rest, hexact, hfuel => by
    simp only [JsonFields.size] at hfuel
    obtain ⟨hvalue, hfields⟩ := hexact
    have hblank : ∀ c ∈ style.afterComma ++ style.newline (depth + 1), isBlank c = true :=
      List.forall_mem_append.mpr ⟨style.blank_afterComma, style.blank_newline _⟩
    simp only [JsonFields.write, List.cons_append, List.append_assoc, readFields]
    rw [skip_cons (by decide)]
    refine ((if_neg (by decide)).trans (if_pos rfl)).trans ?_
    rw [← List.append_assoc, readName_quote hblank]
    simp only [Option.bind_eq_bind, Option.bind_some]
    rw [readValue_skip style.blank_afterColon,
      readValue_write value hvalue (by omega) (ends_fields fields depth rest)]
    simp only [Option.bind_some]
    rw [readFields_write fields hfields (by omega)]
    rfl

end

/-! ### The whole text -/

mutual

theorem size_le_length : ∀ {value : Json} {depth : ℕ}, value.Exact (style.Reads parseFloat) →
    value.size ≤ (value.write style depth).length
  | .null, _, _ => Nat.succ_le_succ (Nat.zero_le 3)
  | .bool true, _, _ => Nat.succ_le_succ (Nat.zero_le 3)
  | .bool false, _, _ => Nat.succ_le_succ (Nat.zero_le 4)
  | .int n, depth, h => by
    obtain ⟨c, cs, hwrite, -⟩ := head_write style h depth
    rw [hwrite, List.length_cons, Json.size]
    omega
  | .float x, depth, h => by
    obtain ⟨c, cs, hwrite, -⟩ := head_write style (show (Json.float x).Exact _ from h) depth
    rw [hwrite, List.length_cons, Json.size]
    omega
  | .str s, depth, h => by
    obtain ⟨c, cs, hwrite, -⟩ := head_write style h depth
    rw [hwrite, List.length_cons, Json.size]
    omega
  | .arr .nil, _, _ => Nat.le_succ 1
  | .arr (.cons item items), depth, ⟨hitem, hitems⟩ => by
    have hsize : item.size ≤ (item.write style (depth + 1)).length := size_le_length hitem
    have hsizes : items.size ≤ (items.write style depth).length := items_size_le_length hitems
    simp only [Json.size, JsonItems.size, Json.write, List.length_cons, List.length_append]
    omega
  | .obj .nil, _, _ => Nat.le_succ 1
  | .obj (.cons name value fields), depth, ⟨hvalue, hfields⟩ => by
    have hsize : value.size ≤ (value.write style (depth + 1)).length := size_le_length hvalue
    have hsizes : fields.size ≤ (fields.write style depth).length := fields_size_le_length hfields
    simp only [Json.size, JsonFields.size, Json.write, List.length_cons, List.length_append]
    omega

theorem items_size_le_length : ∀ {items : JsonItems} {depth : ℕ},
    items.Exact (style.Reads parseFloat) → items.size ≤ (items.write style depth).length
  | .nil, depth, _ => by
    simp only [JsonItems.size, JsonItems.write, List.length_append, List.length_singleton]
    omega
  | .cons item items, depth, ⟨hitem, hitems⟩ => by
    have hsize : item.size ≤ (item.write style (depth + 1)).length := size_le_length hitem
    have hsizes : items.size ≤ (items.write style depth).length := items_size_le_length hitems
    simp only [JsonItems.size, JsonItems.write, List.length_cons, List.length_append]
    omega

theorem fields_size_le_length : ∀ {fields : JsonFields} {depth : ℕ},
    fields.Exact (style.Reads parseFloat) → fields.size ≤ (fields.write style depth).length
  | .nil, depth, _ => by
    simp only [JsonFields.size, JsonFields.write, List.length_append, List.length_singleton]
    omega
  | .cons name value fields, depth, ⟨hvalue, hfields⟩ => by
    have hsize : value.size ≤ (value.write style (depth + 1)).length := size_le_length hvalue
    have hsizes : fields.size ≤ (fields.write style depth).length := fields_size_le_length hfields
    simp only [JsonFields.size, JsonFields.write, List.length_cons, List.length_append]
    omega

end

variable (style) in
/-- **What was written is read back.** -/
theorem read_write {value : Json} (depth : ℕ) (h : value.Exact (style.Reads parseFloat)) :
    read parseFloat (value.write style depth) = some value := by
  have hread : readValue parseFloat ((value.write style depth).length + 1)
      (value.write style depth ++ []) = some (value, []) :=
    readValue_write value h (Nat.le_succ_of_le (size_le_length h)) fun _ hc => by cases hc
  rw [List.append_nil] at hread
  unfold read
  rw [hread]
  rfl

variable (style) in
/-- No two values are written alike. -/
theorem write_injOn {value value' : Json} {depth : ℕ} (h : value.Exact (style.Reads parseFloat))
    (h' : value'.Exact (style.Reads parseFloat))
    (heq : value.write style depth = value'.write style depth) : value = value' := by
  have hread : read parseFloat (value.write style depth) = some value :=
    read_write style depth h
  rw [heq, read_write style depth h'] at hread
  exact (Option.some.inj hread).symm

end

/-! ### On one line -/

/-- A character of ASCII that is written as itself. -/
def Printable (c : Char) : Prop := 0x20 ≤ c.toNat ∧ c.toNat ≤ 0x7e

instance (c : Char) : Decidable (Printable c) := inferInstanceAs (Decidable (_ ∧ _))

/-- A style that breaks no line. -/
structure Style.OneLine (style : Style) : Prop where
  afterColon : ∀ c ∈ style.afterColon, Printable c
  afterComma : ∀ c ∈ style.afterComma, Printable c
  newline : ∀ depth, ∀ c ∈ style.newline depth, Printable c

theorem printable_of_all {cs : List Char} (h : cs.all (fun c => decide (Printable c)) = true) :
    ∀ c ∈ cs, Printable c := fun c hc => of_decide_eq_true (List.all_eq_true.mp h c hc)

theorem printable_hex4 (n : ℕ) : ∀ c ∈ hex4 n, Printable c := by
  have hdigit : ∀ d < 16, Printable (Nat.digitChar d) := by decide
  intro c hc
  simp only [hex4, List.mem_cons, List.not_mem_nil, or_false] at hc
  rcases hc with rfl | rfl | rfl | rfl <;> exact hdigit _ (Nat.mod_lt _ (by norm_num))

theorem printable_unitText (n : ℕ) : ∀ c ∈ unitText n, Printable c := by
  intro c hc
  simp only [unitText, List.mem_cons] at hc
  rcases hc with rfl | rfl | hc
  · decide
  · decide
  · exact printable_hex4 n c hc

theorem printable_escape (c : Char) : ∀ d ∈ escape c, Printable d := by
  unfold escape
  split_ifs with _ _ _ _ _ _ _ hplain
  · exact printable_of_all rfl
  · exact printable_of_all rfl
  · exact printable_of_all rfl
  · exact printable_of_all rfl
  · exact printable_of_all rfl
  · exact printable_of_all rfl
  · exact printable_of_all rfl
  · intro d hd
    rw [List.mem_singleton.mp hd]
    exact ⟨UInt32.le_iff_toNat_le.mp (Char.le_def.mp hplain.1),
      UInt32.le_iff_toNat_le.mp (Char.le_def.mp hplain.2)⟩
  · exact printable_unitText _
  · exact List.forall_mem_append.mpr ⟨printable_unitText _, printable_unitText _⟩

theorem printable_quote (s : String) : ∀ c ∈ quote s, Printable c := by
  intro c hc
  simp only [quote, List.cons_append, List.mem_cons, List.mem_append, List.mem_flatMap,
    List.not_mem_nil, or_false] at hc
  rcases hc with rfl | ⟨d, -, hc⟩ | rfl
  · decide
  · exact printable_escape d c hc
  · decide

theorem printable_digits {cs : List Char} (h : Digits cs) : ∀ c ∈ cs, Printable c := by
  intro c hc
  have hdigit := h.digit c hc
  simp only [Char.isDigit, Bool.and_eq_true, decide_eq_true_eq, UInt32.le_iff_toNat_le] at hdigit
  exact ⟨le_trans (by decide) hdigit.1, le_trans hdigit.2 (by decide)⟩

theorem printable_numberText (negative : Bool) (n : ℕ) {fraction exponent : List Char}
    (hf : Fraction fraction) (he : Exponent exponent) :
    ∀ c ∈ numberText negative n fraction exponent, Printable c := by
  have hmark : ∀ e : Char, e = 'e' ∨ e = 'E' → Printable e := by
    rintro e (rfl | rfl) <;> decide
  have hsigns : ∀ sign : Char, sign = '+' ∨ sign = '-' → Printable sign := by
    rintro sign (rfl | rfl) <;> decide
  have hnegative : ∀ c ∈ if negative then ['-'] else [], Printable c := by
    cases negative with
    | true => exact printable_of_all rfl
    | false => exact printable_of_all rfl
  refine List.forall_mem_append.mpr ⟨List.forall_mem_append.mpr ⟨List.forall_mem_append.mpr
    ⟨hnegative, printable_digits (digits_toDigits n)⟩, ?_⟩, ?_⟩
  · cases hf with
    | none => exact printable_of_all rfl
    | digits h => exact List.forall_mem_cons.mpr ⟨by decide, printable_digits h⟩
  · cases he with
    | none => exact printable_of_all rfl
    | digits he h => exact List.forall_mem_cons.mpr ⟨hmark _ he, printable_digits h⟩
    | signed he hsign h =>
      exact List.forall_mem_cons.mpr ⟨hmark _ he,
        List.forall_mem_cons.mpr ⟨hsigns _ hsign, printable_digits h⟩⟩

theorem printable_toString (n : ℤ) : ∀ c ∈ (toString n).toList, Printable c := by
  rw [toString_eq_numberText]
  exact printable_numberText _ _ .none .none

theorem printable_floatText {cs : List Char} (h : FloatText cs) : ∀ c ∈ cs, Printable c := by
  obtain ⟨negative, n, hf, he, -⟩ := h
  exact printable_numberText negative n hf he

section

variable {style : Style} {parseFloat : List Char → FloatValue}

mutual

/-- **On one line**, and in ASCII, if the style breaks none. -/
theorem printable_write (hstyle : style.OneLine) : ∀ {value : Json} {depth : ℕ},
    value.Exact (style.Reads parseFloat) → ∀ c ∈ value.write style depth, Printable c
  | .null, _, _ => by
    simp only [Json.write]
    exact printable_of_all rfl
  | .bool true, _, _ => by
    simp only [Json.write]
    exact printable_of_all rfl
  | .bool false, _, _ => by
    simp only [Json.write]
    exact printable_of_all rfl
  | .int n, _, _ => printable_toString n
  | .float x, _, h => printable_floatText h.text
  | .str s, _, _ => printable_quote s
  | .arr .nil, _, _ => by
    simp only [Json.write]
    exact printable_of_all rfl
  | .arr (.cons item items), depth, ⟨hitem, hitems⟩ => by
    intro c hc
    simp only [Json.write, List.mem_cons, List.mem_append] at hc
    rcases hc with rfl | (hc | hc) | hc
    · decide
    · exact hstyle.newline _ c hc
    · exact printable_write hstyle hitem c hc
    · exact printable_items hstyle hitems c hc
  | .obj .nil, _, _ => by
    simp only [Json.write]
    exact printable_of_all rfl
  | .obj (.cons name value fields), depth, ⟨hvalue, hfields⟩ => by
    intro c hc
    simp only [Json.write, List.mem_cons, List.mem_append] at hc
    rcases hc with rfl | (((hc | hc) | rfl | hc) | hc) | hc
    · decide
    · exact hstyle.newline _ c hc
    · exact printable_quote name c hc
    · decide
    · exact hstyle.afterColon c hc
    · exact printable_write hstyle hvalue c hc
    · exact printable_fields hstyle hfields c hc

theorem printable_items (hstyle : style.OneLine) : ∀ {items : JsonItems} {depth : ℕ},
    items.Exact (style.Reads parseFloat) → ∀ c ∈ items.write style depth, Printable c
  | .nil, depth, _ => by
    intro c hc
    simp only [JsonItems.write] at hc
    rcases List.mem_append.mp hc with hc | hc
    · exact hstyle.newline _ c hc
    · exact printable_of_all rfl c hc
  | .cons item items, depth, ⟨hitem, hitems⟩ => by
    intro c hc
    simp only [JsonItems.write, List.mem_cons, List.mem_append] at hc
    rcases hc with rfl | ((hc | hc) | hc) | hc
    · decide
    · exact hstyle.afterComma c hc
    · exact hstyle.newline _ c hc
    · exact printable_write hstyle hitem c hc
    · exact printable_items hstyle hitems c hc

theorem printable_fields (hstyle : style.OneLine) : ∀ {fields : JsonFields} {depth : ℕ},
    fields.Exact (style.Reads parseFloat) → ∀ c ∈ fields.write style depth, Printable c
  | .nil, depth, _ => by
    intro c hc
    simp only [JsonFields.write] at hc
    rcases List.mem_append.mp hc with hc | hc
    · exact hstyle.newline _ c hc
    · exact printable_of_all rfl c hc
  | .cons name value fields, depth, ⟨hvalue, hfields⟩ => by
    intro c hc
    simp only [JsonFields.write, List.mem_cons, List.mem_append] at hc
    rcases hc with rfl | ((((hc | hc) | hc) | rfl | hc) | hc) | hc
    · decide
    · exact hstyle.afterComma c hc
    · exact hstyle.newline _ c hc
    · exact printable_quote name c hc
    · decide
    · exact hstyle.afterColon c hc
    · exact printable_write hstyle hvalue c hc
    · exact printable_fields hstyle hfields c hc

end

end

end JsonText
