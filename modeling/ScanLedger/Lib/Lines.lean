/-
# The lines of a text

A text is cut at its line breaks (`lines`), and a reader of it tells the kind of
a line by its first character. The first characters of the lines of a text put
together from parts are found part by part, with the one thing to carry along
being whether the next character begins a line (`starts`, `ends`). Lines that
were joined come apart again as the lines of each.

Key definitions: `Lines.lines`, `Lines.starts`, `Lines.ends`, `Lines.Tame`,
`Lines.Keeps`.
Key theorems: `Lines.lines_join`, `Lines.count_starts`, `Lines.tame_append`,
`Lines.marked_iff`.
-/
import Mathlib.Algebra.Order.BigOperators.Group.List
import Mathlib.Algebra.Order.Group.Nat
import Mathlib.Algebra.Ring.Nat
import Mathlib.Data.List.Count
import ScanLedger.Lib.Fields

namespace Lines

/-- The lines of a text. -/
def lines (cs : List Char) : List (List Char) := cs.splitOn '\n'

/-- The first characters of the lines that have one; `fresh` when the text
begins a line. -/
def starts : Bool → List Char → List Char
  | _, [] => []
  | fresh, c :: cs =>
    if c = '\n' then starts true cs
    else if fresh then c :: starts false cs
    else starts false cs

/-- What follows the text begins a line. -/
def ends : Bool → List Char → Bool
  | fresh, [] => fresh
  | _, c :: cs => ends (c == '\n') cs

/-- None of the characters begins a line of the text. -/
def Tame (marks : List Char) (fresh : Bool) (cs : List Char) : Prop :=
  ∀ c ∈ marks, c ∉ starts fresh cs

instance (marks : List Char) (fresh : Bool) (cs : List Char) : Decidable (Tame marks fresh cs) :=
  List.decidableBAll (fun c => c ∉ starts fresh cs) marks

variable {marks cs ds : List Char} {fresh : Bool} {c : Char}

/-! ### Joined lines -/

theorem lines_of_notMem (h : '\n' ∉ cs) : lines cs = [cs] := List.splitOn_eq_singleton h

/-- **Joined lines** come apart as the lines of each. -/
theorem lines_join {ls : List (List Char)} (h : ls ≠ []) :
    lines (['\n'].intercalate ls) = ls.flatMap lines := Fields.splitOn_intercalate h

theorem lines_cons (c : Char) (cs : List Char) : lines (c :: cs) =
    if c = '\n' then [] :: lines cs else (lines cs).modifyHead (c :: ·) := by
  unfold lines
  rw [List.splitOn_cons_eq_if_modifyHead]
  simp only [beq_iff_eq]

/-- A line has no line break. -/
theorem notMem_of_mem_lines {l : List Char} (h : l ∈ lines cs) : '\n' ∉ l := by
  induction cs generalizing l with
  | nil =>
    rw [List.mem_singleton.mp h]
    exact List.not_mem_nil
  | cons c cs ih =>
    rw [lines_cons] at h
    split_ifs at h with hc
    · rcases List.mem_cons.mp h with rfl | h
      · exact List.not_mem_nil
      · exact ih h
    · cases hl : lines cs with
      | nil =>
        rw [hl] at h
        cases h
      | cons m ls =>
        rw [hl, List.modifyHead_cons] at h
        rw [hl] at ih
        rcases List.mem_cons.mp h with rfl | h
        · rw [List.mem_cons, not_or]
          exact ⟨fun he => hc he.symm, ih List.mem_cons_self⟩
        · exact ih (List.mem_cons_of_mem m h)

/-! ### How lines begin -/

/-- The first characters, of all lines and of all but the first. -/
theorem filterMap_head_lines (cs : List Char) :
    (lines cs).filterMap List.head? = starts true cs ∧
      (lines cs).tail.filterMap List.head? = starts false cs := by
  induction cs with
  | nil => exact ⟨rfl, rfl⟩
  | cons c cs ih =>
    obtain ⟨hall, htail⟩ := ih
    rw [lines_cons]
    by_cases hc : c = '\n'
    · rw [if_pos hc, starts, if_pos hc, starts, if_pos hc, List.filterMap_cons_none rfl]
      exact ⟨hall, hall⟩
    · cases hl : lines cs with
      | nil => exact absurd hl (List.splitOn_ne_nil _ _)
      | cons l ls =>
        rw [hl, List.tail_cons] at htail
        simp [starts, hc, htail]

/-- How many lines begin so. -/
theorem count_starts (c : Char) (cs : List Char) :
    (lines cs).countP (fun l => l.head? == some c) = (starts true cs).count c := by
  rw [← (filterMap_head_lines cs).1, List.count_filterMap]

theorem starts_append : starts fresh (cs ++ ds) = starts fresh cs ++ starts (ends fresh cs) ds := by
  induction cs generalizing fresh with
  | nil => rfl
  | cons c cs ih =>
    rw [List.cons_append, starts, starts, ends]
    by_cases hc : c = '\n'
    · rw [if_pos hc, if_pos hc, ih, hc]
      rfl
    · have hbeq : (c == '\n') = false := beq_false_of_ne hc
      rw [if_neg hc, if_neg hc, ih, hbeq]
      cases fresh <;> rfl

theorem ends_append : ends fresh (cs ++ ds) = ends (ends fresh cs) ds := by
  induction cs generalizing fresh with
  | nil => rfl
  | cons c cs ih => exact ih

/-- A text without a line break goes on with the line it is in. -/
theorem starts_of_notMem (h : '\n' ∉ cs) : starts false cs = [] := by
  induction cs with
  | nil => rfl
  | cons c cs ih =>
    rw [List.mem_cons, not_or] at h
    rw [starts, if_neg (Ne.symm h.1)]
    exact ih h.2

theorem ends_of_notMem (h : '\n' ∉ cs) : ends false cs = false := by
  induction cs with
  | nil => rfl
  | cons c cs ih =>
    rw [List.mem_cons, not_or] at h
    rw [ends, beq_false_of_ne (Ne.symm h.1)]
    exact ih h.2

/-! ### Tame texts -/

theorem tame_append : Tame marks fresh (cs ++ ds) ↔
    Tame marks fresh cs ∧ Tame marks (ends fresh cs) ds := by
  unfold Tame
  simp only [starts_append, List.mem_append, not_or]
  exact ⟨fun h => ⟨fun c hc => (h c hc).1, fun c hc => (h c hc).2⟩,
    fun h c hc => ⟨h.1 c hc, h.2 c hc⟩⟩

/-- One line, with the start of another kind. -/
structure Plain (marks cs : List Char) : Prop where
  nonempty : cs ≠ []
  oneLine : '\n' ∉ cs
  start : ∀ c ∈ cs.head?, c ∉ marks

/-- Wherever it stands, such a text is tame, and its end is not a line's start. -/
theorem Plain.append (h : Plain marks cs) :
    Tame marks fresh (cs ++ ds) ↔ Tame marks false ds := by
  obtain ⟨hne, hline, hstart⟩ := h
  cases cs with
  | nil => exact absurd rfl hne
  | cons c cs =>
    rw [List.mem_cons, not_or] at hline
    have hbeq : (c == '\n') = false := beq_false_of_ne (Ne.symm hline.1)
    have hends : ends fresh (c :: cs) = false := by
      rw [ends, hbeq]
      exact ends_of_notMem hline.2
    have htame : Tame marks fresh (c :: cs) := by
      intro m hm
      rw [starts, if_neg (Ne.symm hline.1), starts_of_notMem hline.2]
      cases fresh with
      | false => exact List.not_mem_nil
      | true =>
        rw [if_pos rfl, List.mem_singleton]
        rintro rfl
        exact hstart m rfl hm
    rw [tame_append, hends]
    exact and_iff_right htame

theorem Plain.tame (h : Plain marks cs) : Tame marks fresh cs := by
  have happend : Tame marks fresh (cs ++ []) := h.append.mpr fun _ _ => List.not_mem_nil
  rwa [List.append_nil] at happend

theorem tame_of_notMem (h : '\n' ∉ cs) : Tame marks false cs := by
  intro m _
  rw [starts_of_notMem h]
  exact List.not_mem_nil

/-! ### Marked lines -/

section

variable {α β : Type} {l : List α}

/-- Lists that are put together from longer ones are the same only piece by piece. -/
theorem flatMap_eq_iff {f g : α → List β} (hle : ∀ x ∈ l, (g x).length ≤ (f x).length) :
    l.flatMap f = l.flatMap g ↔ ∀ x ∈ l, f x = g x := by
  refine ⟨?_, List.flatMap_congr⟩
  induction l with
  | nil => exact fun _ x hx => absurd hx List.not_mem_nil
  | cons y l ih =>
    intro h
    have hy := hle y List.mem_cons_self
    have hrest : ∀ x ∈ l, (g x).length ≤ (f x).length := fun x hx =>
      hle x (List.mem_cons_of_mem y hx)
    have hsum : (l.flatMap g).length ≤ (l.flatMap f).length := by
      rw [List.length_flatMap, List.length_flatMap]
      exact List.sum_le_sum hrest
    rw [List.flatMap_cons, List.flatMap_cons] at h
    have htotal := congrArg List.length h
    rw [List.length_append, List.length_append] at htotal
    obtain ⟨hhead, htail⟩ := List.append_inj h (by omega)
    exact List.forall_mem_cons.mpr ⟨hhead, ih hrest htail⟩

/-- Sums of greater numbers are the same only number by number. -/
theorem sum_map_eq_iff {a b : α → ℕ} (hle : ∀ x ∈ l, b x ≤ a x) :
    (l.map a).sum = (l.map b).sum ↔ ∀ x ∈ l, a x = b x := by
  refine ⟨?_, fun h => by rw [List.map_congr_left h]⟩
  induction l with
  | nil => exact fun _ x hx => absurd hx List.not_mem_nil
  | cons y l ih =>
    intro h
    have hy := hle y List.mem_cons_self
    have hrest : ∀ x ∈ l, b x ≤ a x := fun x hx => hle x (List.mem_cons_of_mem y hx)
    have hsum : (l.map b).sum ≤ (l.map a).sum := List.sum_le_sum hrest
    rw [List.map_cons, List.map_cons, List.sum_cons, List.sum_cons] at h
    exact List.forall_mem_cons.mpr ⟨by omega, ih hrest (by omega)⟩

end

section

variable (row other : Char)

/-- The line begins so. -/
def marked (mark : Char) (l : List Char) : Bool := l.head? == some mark

/-- A text meant as one line is: no break in one that is marked as a row, and
no mark after a break in the others. -/
def Keeps (l : List Char) : Prop :=
  if marked row l = true then '\n' ∉ l else Tame [row, other] false l

variable {row other} {l : List Char}

/-- The first line of a text with a first character. -/
theorem starts_cons (hc : c ≠ '\n') : starts true (c :: cs) = c :: starts false (c :: cs) := by
  rw [starts, starts, if_neg hc, if_neg hc]
  rfl

/-- The marks among the lines of one text. -/
theorem count_marked {mark : Char} (hl : l.head? ≠ some '\n') :
    (lines l).countP (marked mark) =
      (if marked mark l then 1 else 0) + (starts false l).count mark := by
  have hcount : (lines l).countP (marked mark) = (starts true l).count mark := count_starts mark l
  rw [hcount]
  cases l with
  | nil => rfl
  | cons c cs =>
    have hc : c ≠ '\n' := fun he => hl (congrArg some he)
    rw [starts_cons hc, List.count_cons]
    have hsame : marked mark (c :: cs) = (c == mark) := by simp [marked]
    rw [hsame]
    omega

/-- The rows among the lines of a text that keeps its line, and the others. -/
theorem keeps_iff (hl : l.head? ≠ some '\n') : Keeps row other l ↔
      (lines l).filter (marked row) = (if marked row l then [l] else []) ∧
        (lines l).countP (marked other) = if marked other l then 1 else 0 := by
  have htame : ∀ mark, (starts false l).count mark = 0 ↔ mark ∉ starts false l := fun mark =>
    List.count_eq_zero
  unfold Keeps
  rw [count_marked hl]
  by_cases hm : marked row l = true
  · rw [if_pos hm, if_pos hm]
    constructor
    · intro hline
      rw [lines_of_notMem hline, List.filter_cons_of_pos hm, List.filter_nil,
        starts_of_notMem hline]
      exact ⟨rfl, by simp⟩
    · rintro ⟨hlines, -⟩
      have hmem : l ∈ (lines l).filter (marked row) := by
        rw [hlines]
        exact List.mem_cons_self
      exact notMem_of_mem_lines (List.mem_of_mem_filter hmem)
  · rw [if_neg hm, if_neg hm]
    have hrows : (lines l).filter (marked row) = [] ↔ row ∉ starts false l := by
      rw [← List.length_eq_zero_iff, ← List.countP_eq_length_filter, count_marked hl,
        if_neg hm, Nat.zero_add, htame]
    rw [hrows, Nat.add_eq_left, htame]
    unfold Tame
    simp only [List.mem_cons, List.not_mem_nil, or_false, forall_eq_or_imp, forall_eq]

/-- **Marked lines.** Of joined texts the rows are the texts marked as rows,
and the other mark begins as many lines as it begins texts, exactly when each
text keeps its line. -/
theorem marked_iff {ls : List (List Char)} (hls : ls ≠ [])
    (hhead : ∀ l ∈ ls, l.head? ≠ some '\n') :
    ((lines (['\n'].intercalate ls)).filter (marked row) = ls.filter (marked row) ∧
      (lines (['\n'].intercalate ls)).countP (marked other) = ls.countP (marked other)) ↔
      ∀ l ∈ ls, Keeps row other l := by
  have hfilter : ls.filter (marked row) =
      ls.flatMap fun l => if marked row l then [l] else [] := by
    simpa only [List.flatMap_singleton', List.filter_cons, List.filter_nil] using
      List.filter_flatMap (l := ls) (g := fun l => [l]) (f := marked row)
  have hcount : ls.countP (marked other) =
      (ls.map fun l => if marked other l then 1 else 0).sum := by
    simpa only [List.flatMap_singleton', Function.comp_def, List.countP_singleton] using
      List.countP_flatMap (l := ls) (f := fun l => [l]) (p := marked other)
  rw [lines_join hls, List.filter_flatMap, List.countP_flatMap, hfilter, hcount,
    flatMap_eq_iff, sum_map_eq_iff]
  · constructor
    · rintro ⟨hrows, hothers⟩ l hl
      exact (keeps_iff (hhead l hl)).mpr ⟨hrows l hl, hothers l hl⟩
    · intro h
      exact ⟨fun l hl => ((keeps_iff (hhead l hl)).mp (h l hl)).1,
        fun l hl => ((keeps_iff (hhead l hl)).mp (h l hl)).2⟩
  · intro l hl
    rw [Function.comp_apply, count_marked (hhead l hl)]
    omega
  · intro l hl
    rw [← List.countP_eq_length_filter, count_marked (hhead l hl)]
    split_ifs <;> simp

end

end Lines
