/-
# UTF-8 with replacement

`bytes.decode("utf-8", errors="replace")`: a byte that cannot stand where it
does, and the beginning of a character that is not completed, become one U+FFFD
each. The decoder goes through the bytes one at a time and carries along the
character under way.

Key definitions: `Utf8.step`, `Utf8.decode`.
Key theorems: `Utf8.decodeFrom_append`, `Utf8.length_decode_singleton`.
-/
import Mathlib.Data.List.Basic

namespace Utf8

def replacement : Char := '\uFFFD'

/-- A character under way: what its bytes so far come to, how many are still to
come, and the range of the next. -/
structure Pending where
  value : ℕ
  owed : ℕ
  low : ℕ
  high : ℕ

/-- A byte where a character begins: the characters it completes, and the one
it leaves under way. Overlong forms, surrogates and values past U+10FFFF are
excluded by the range of the second byte. -/
def lead (b : UInt8) : List Char × Option Pending :=
  let n := b.toNat
  if n < 0x80 then ([Char.ofNat n], none)
  else if 0xC2 ≤ n ∧ n ≤ 0xDF then ([], some ⟨n - 0xC0, 1, 0x80, 0xBF⟩)
  else if n = 0xE0 then ([], some ⟨0, 2, 0xA0, 0xBF⟩)
  else if n = 0xED then ([], some ⟨0xD, 2, 0x80, 0x9F⟩)
  else if 0xE1 ≤ n ∧ n ≤ 0xEF then ([], some ⟨n - 0xE0, 2, 0x80, 0xBF⟩)
  else if n = 0xF0 then ([], some ⟨0, 3, 0x90, 0xBF⟩)
  else if 0xF1 ≤ n ∧ n ≤ 0xF3 then ([], some ⟨n - 0xF0, 3, 0x80, 0xBF⟩)
  else if n = 0xF4 then ([], some ⟨4, 3, 0x80, 0x8F⟩)
  else ([replacement], none)

/-- A byte that does not continue the character under way is read again as the
first of its own. -/
def step : Option Pending → UInt8 → List Char × Option Pending
  | none, b => lead b
  | some p, b =>
    if p.low ≤ b.toNat ∧ b.toNat ≤ p.high then
      let value := p.value * 64 + (b.toNat - 0x80)
      if p.owed ≤ 1 then ([Char.ofNat value], none)
      else ([], some ⟨value, p.owed - 1, 0x80, 0xBF⟩)
    else (replacement :: (lead b).1, (lead b).2)

/-- What is left at the end of the bytes. -/
def flush : Option Pending → List Char
  | none => []
  | some _ => [replacement]

def decodeFrom : Option Pending → List UInt8 → List Char
  | p, [] => flush p
  | p, b :: bs => (step p b).1 ++ decodeFrom (step p b).2 bs

def decode (bs : List UInt8) : List Char := decodeFrom none bs

example : decode [0x48, 0xC3, 0xA9, 0xE2, 0x82, 0xAC, 0xF0, 0x9F, 0x98, 0x80] =
    ['H', 'é', '€', '😀'] := by decide

example : decode [0xE2, 0x82, 0x41, 0xED, 0xA0, 0xF0, 0x80, 0xE2] =
    [replacement, 'A', replacement, replacement, replacement, replacement, replacement] := by decide

/-- **More bytes** leave what was decoded, but for a character under way. -/
theorem decodeFrom_append : ∀ (bs : List UInt8) (p : Option Pending), ∃ out q,
    decodeFrom p bs = out ++ flush q ∧ ∀ cs, decodeFrom p (bs ++ cs) = out ++ decodeFrom q cs
  | [], p => ⟨[], p, rfl, fun _ => rfl⟩
  | b :: bs, p => by
    obtain ⟨out, q, hbs, happend⟩ := decodeFrom_append bs (step p b).2
    refine ⟨(step p b).1 ++ out, q, ?_, ?_⟩
    · rw [decodeFrom, hbs, List.append_assoc]
    · intro cs
      rw [List.cons_append, decodeFrom, happend, List.append_assoc]

theorem length_lead (b : UInt8) : (lead b).1.length + (flush (lead b).2).length = 1 := by
  unfold lead
  dsimp only
  split_ifs <;> rfl

theorem length_decode_singleton (b : UInt8) : (decode [b]).length = 1 := by
  have hone : decode [b] = (lead b).1 ++ flush (lead b).2 := rfl
  rw [hone, List.length_append, length_lead]

end Utf8
