/-
# Characters

What Python knows of characters, as far as patterns and `str.lower` go: `\d` is a
decimal digit, `\w` a letter, a digit or an underscore, and a letter in a pattern
that ignores the case stands for the characters with its lower case. The tables
of Unicode are a parameter; all that is known of them is ASCII, and how the
classes lie in each other.

Key definitions: `CharTables`, `digit`, `word`, `ignoreCase`.
-/
import ScanLedger.Lib.Regex
import ScanLedger.Text

namespace ScanLedger

open Regex

structure CharTables where
  /-- The value of a decimal digit. -/
  decimal : Char → Option ℕ
  /-- `str.isalnum` of one character. -/
  alnum : Char → Bool
  /-- `str.lower`. -/
  lower : List Char → List Char
  decimal_ascii : ∀ c, c.toNat < 128 →
    decimal c = if c.isDigit then some (c.toNat - 48) else none
  alnum_ascii : ∀ c, c.toNat < 128 → alnum c = c.isAlphanum
  alnum_of_decimal : ∀ c, (decimal c).isSome = true → alnum c = true
  not_space_of_alnum : ∀ c, alnum c = true → isSpace c = false
  /-- U+FFFD is neither a letter nor a digit. -/
  alnum_replacement : alnum '\uFFFD' = false
  lower_ascii : ∀ cs, (∀ c ∈ cs, c.toNat < 128) → lower cs = cs.map Char.toLower

/-- The tables of a text that is all ASCII. -/
def asciiTables : CharTables where
  decimal c := if c.isDigit then some (c.toNat - 48) else none
  alnum := Char.isAlphanum
  lower cs := cs.map Char.toLower
  decimal_ascii _ _ := rfl
  alnum_ascii _ _ := rfl
  alnum_of_decimal c h := by
    have hdigit : c.isDigit = true := by
      by_contra hno
      rw [if_neg hno] at h
      cases h
    unfold Char.isAlphanum
    rw [hdigit, Bool.or_true]
  not_space_of_alnum c h := by
    have hascii : ((65 ≤ c.toNat ∧ c.toNat ≤ 90) ∨ (97 ≤ c.toNat ∧ c.toNat ≤ 122)) ∨
        (48 ≤ c.toNat ∧ c.toNat ≤ 57) := by
      change ((decide (c.val ≥ 'A'.val ∧ c.val ≤ 'Z'.val) ||
          decide (c.val ≥ 'a'.val) && decide (c.val ≤ 'z'.val)) ||
        decide (c.val ≥ '0'.val) && decide (c.val ≤ '9'.val)) = true at h
      simp only [Bool.or_eq_true, Bool.and_eq_true, decide_eq_true_eq, ge_iff_le,
        UInt32.le_iff_toNat_le] at h
      exact h
    simp only [isSpace, Bool.or_eq_false_iff, decide_eq_false_iff_not, beq_eq_false_iff_ne]
    omega
  alnum_replacement := by decide
  lower_ascii _ _ := rfl

variable (u : CharTables)

/-- `\d`. -/
def digit (c : Char) : Bool := (u.decimal c).isSome

/-- `\w`. -/
def word (c : Char) : Bool := u.alnum c || c == '_'

/-- `[\d.]`. -/
def digitDot (c : Char) : Bool := digit u c || c == '.'

/-- `[\w.]`. -/
def wordDot (c : Char) : Bool := word u c || c == '.'

/-- `\b`. -/
def atBoundary (before next : Option Char) : Bool := before.any (word u) != next.any (word u)

/-- A run of digits. -/
def Digits (w : List Char) : Prop := w ≠ [] ∧ All (digit u) w

/-- A character of a pattern that ignores the case: three letters have others
than their capital too. -/
def sameLetter (c x : Char) : Bool :=
  x.toLower == c.toLower || match c.toLower with
    | 'i' => x == 'İ' || x == 'ı'
    | 's' => x == 'ſ'
    | 'k' => x.toNat == 0x212A
    | _ => false

/-- A dash is no letter. -/
theorem eq_of_sameLetter_dash {c : Char} (h : sameLetter '-' c = true) : c = '-' := by
  have hlower : c.toLower = '-' := by simpa [sameLetter] using h
  unfold Char.toLower at hlower
  by_cases hupper : c.val ≥ 'A'.val ∧ c.val ≤ 'Z'.val
  · -- a capital in lower case is past every other mark
    rw [dif_pos hupper] at hlower
    have hval : (c.val + ('a'.val - 'A'.val)).toNat = 45 :=
      congrArg (fun x : Char => x.val.toNat) hlower
    have hcase : ('a'.val - 'A'.val).toNat = 32 := by decide
    have hfirst : 65 ≤ c.val.toNat := UInt32.le_iff_toNat_le.mp hupper.1
    have hlast : c.val.toNat ≤ 90 := UInt32.le_iff_toNat_le.mp hupper.2
    rw [UInt32.toNat_add, hcase] at hval
    omega
  · rw [dif_neg hupper] at hlower
    exact hlower

/-- A text in a pattern that ignores the case. -/
def ignoreCase (text : String) : Pattern Char := literal (text.toList.map sameLetter)

/-- The text, with any letter in another case. -/
def Reads (text : String) (w : List Char) : Prop := Spells (text.toList.map sameLetter) w

/-! ### How the classes lie -/

section

variable {u : CharTables} {c : Char} {s w : List Char} {name : String}

theorem digit_of_not_ascii_digit (h : c.toNat < 128) (hno : c.isDigit = false) :
    digit u c = false := by
  unfold digit
  rw [u.decimal_ascii c h, hno]
  rfl

theorem digit_dot : digit u '.' = false := digit_of_not_ascii_digit (by decide) (by decide)

theorem digit_nul : digit u '\x00' = false := digit_of_not_ascii_digit (by decide) (by decide)

theorem digit_dash : digit u '-' = false := digit_of_not_ascii_digit (by decide) (by decide)

theorem digit_newline : digit u '\n' = false := digit_of_not_ascii_digit (by decide) (by decide)

theorem isSpace_of_word (h : word u c = true) : isSpace c = false := by
  unfold word at h
  rcases Bool.or_eq_true_iff.mp h with halnum | hscore
  · exact u.not_space_of_alnum c halnum
  · rw [beq_iff_eq.mp hscore]
    decide

theorem isSpace_of_wordDot (h : wordDot u c = true) : isSpace c = false := by
  unfold wordDot at h
  rcases Bool.or_eq_true_iff.mp h with hword | hdot
  · exact isSpace_of_word hword
  · rw [beq_iff_eq.mp hdot]
    decide

theorem word_of_digit (h : digit u c = true) : word u c = true := by
  unfold word
  rw [u.alnum_of_decimal c h]
  rfl

theorem length_reads (h : Reads name w) : w.length = name.length := by
  have hlength : (name.toList.map sameLetter).length = w.length := List.Forall₂.length_eq h
  rw [← hlength, List.length_map, String.length_toList]

theorem drop_reads (h : Reads name w) : (w ++ s).drop name.length = s := by
  rw [← length_reads h, List.drop_left]

theorem digitDot_of_digit (h : digit u c = true) : digitDot u c = true := by
  unfold digitDot
  rw [h]
  rfl

theorem wordDot_of_digitDot (h : digitDot u c = true) : wordDot u c = true := by
  unfold digitDot at h
  unfold wordDot
  rcases Bool.or_eq_true_iff.mp h with hdigit | hdot
  · rw [word_of_digit hdigit]
    rfl
  · rw [hdot, Bool.or_true]

theorem isSpace_of_digitDot (h : digitDot u c = true) : isSpace c = false :=
  isSpace_of_wordDot (wordDot_of_digitDot h)

theorem digitDot_dot : digitDot u '.' = true := by
  unfold digitDot
  rw [beq_self_eq_true, Bool.or_true]

theorem digitDot_dash : digitDot u '-' = false := by
  unfold digitDot
  rw [digit_dash]
  rfl

theorem digitDot_nul : digitDot u '\x00' = false := by
  unfold digitDot
  rw [digit_nul]
  rfl

theorem head_reads {cs v : List Char} (h : Reads (String.ofList ('-' :: cs)) v) :
    v.head? = some '-' := by
  unfold Reads Spells at h
  rw [String.toList_ofList, List.map_cons, List.forall₂_cons_left_iff] at h
  obtain ⟨c, v', hc, -, rfl⟩ := h
  rw [eq_of_sameLetter_dash hc]
  rfl

end

end ScanLedger
