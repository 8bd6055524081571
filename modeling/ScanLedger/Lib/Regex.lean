/-
# Backtracking patterns

A pattern is matched the way a backtracking matcher does: `run` lists every way
in which a pattern matches from a place on, in the order in which the matcher
tries them, and the match is the first of them. A search takes the first place
with a match.

What a pattern can match is read off `run` as a set, construct by construct
(`mem_run_seqs`, `Matches`, ..); which match comes first is put together
from the first matches of the parts (`first_seqs`, `first_plus`, ..).

Key definitions: `Regex.Pattern`, `Regex.run`, `Regex.find`, `Regex.search`, `Regex.Matches`.
Key theorems: `Regex.mem_run_plus`, `Regex.Matches.mem_run_seqs`, `Regex.first_seqs`,
`Regex.first_star`, `Regex.find_eq_some`, `Regex.find_eq_none`, `Regex.infix_of_search`.
-/
import Mathlib.Data.List.Basic
import Mathlib.Data.List.Forall2
import Mathlib.Data.List.TakeWhile

namespace Regex

variable {α : Type}

/-- A class of characters, an assertion about the characters on both sides of
a place, and the constructs over them. -/
inductive Pattern (α : Type) where
  | empty
  | one (p : α → Bool)
  | look (q : Option α → Option α → Bool)
  | seq (r s : Pattern α)
  | star (r : Pattern α)
  | lazyStar (r : Pattern α)
  | opt (r : Pattern α)
  | group (r : Pattern α)

/-- What was matched, what comes after it, and what the groups captured, in the
order in which they open. -/
structure Found (α : Type) where
  text : List α
  rest : List α
  groups : List (List α)
  deriving DecidableEq, Repr

def Found.andThen (m m' : Found α) : Found α :=
  ⟨m.text ++ m'.text, m'.rest, m.groups ++ m'.groups⟩

/-- The character before a place, once a text has been matched. -/
def after (prev : Option α) (text : List α) : Option α := text.getLast?.or prev

/-- Repetitions of what `f` finds: as many as possible first when `eager`, and
as few as possible first otherwise. A repetition of nothing is not counted. -/
def repeated (eager : Bool) (f : Option α → List α → List (Found α)) :
    ℕ → Option α → List α → List (Found α)
  | 0, _, as => [⟨[], as, []⟩]
  | fuel + 1, prev, as =>
    let more := ((f prev as).filter fun m => !m.text.isEmpty).flatMap fun m =>
      (repeated eager f fuel (after prev m.text) m.rest).map m.andThen
    if eager then more ++ [⟨[], as, []⟩] else ⟨[], as, []⟩ :: more

/-- The ways in which a pattern matches, in the order they are tried. -/
def run : Pattern α → Option α → List α → List (Found α)
  | .empty, _, as => [⟨[], as, []⟩]
  | .one _, _, [] => []
  | .one p, _, a :: as => if p a then [⟨[a], as, []⟩] else []
  | .look q, prev, as => if q prev as.head? then [⟨[], as, []⟩] else []
  | .seq r s, prev, as => (run r prev as).flatMap fun m =>
    (run s (after prev m.text) m.rest).map m.andThen
  | .star r, prev, as => repeated true (run r) as.length prev as
  | .lazyStar r, prev, as => repeated false (run r) as.length prev as
  | .opt r, prev, as => run r prev as ++ [⟨[], as, []⟩]
  | .group r, prev, as => (run r prev as).map fun m => { m with groups := m.text :: m.groups }

/-- The match from a place on. -/
def first (r : Pattern α) (prev : Option α) (as : List α) : Option (Found α) :=
  (run r prev as).head?

/-- The first place at which the pattern matches: the character before it, and
the text from it on. -/
def find (r : Pattern α) : Option α → List α → Option (Option α × List α)
  | prev, [] => if (run r prev []).isEmpty then none else some (prev, [])
  | prev, a :: as =>
    if (run r prev (a :: as)).isEmpty then find r (some a) as else some (prev, a :: as)

/-- `re.search`. -/
def search (r : Pattern α) (as : List α) : Option (Found α) :=
  (find r none as).bind fun place => first r place.1 place.2

/-- `re.match`. -/
def matchStart (r : Pattern α) (as : List α) : Option (Found α) := first r none as

/-! ### Patterns made of others -/

def Pattern.plus (r : Pattern α) : Pattern α := .seq r (.star r)

def seqs : List (Pattern α) → Pattern α
  | [] => .empty
  | r :: rs => .seq r (seqs rs)

/-- One character after the other. -/
def literal : List (α → Bool) → Pattern α
  | [] => .empty
  | p :: ps => .seq (.one p) (literal ps)

/-- The text is made of characters of the classes, one each. -/
def Spells (ps : List (α → Bool)) (w : List α) : Prop := List.Forall₂ (fun p a => p a = true) ps w

/-- All characters are of the class. -/
def All (p : α → Bool) (w : List α) : Prop := ∀ a ∈ w, p a = true

instance (p : α → Bool) (w : List α) : Decidable (All p w) :=
  List.decidableBAll (fun a => p a = true) w

/-- The next character, if there is one, is not of the class. -/
def Stops (p : α → Bool) (s : List α) : Prop := ∀ a ∈ s.head?, p a = false

section

variable {p : α → Bool} {ps : List (α → Bool)} {r s : Pattern α} {rs : List (Pattern α)}
  {q : Option α → Option α → Bool} {prev : Option α} {a : α} {as w t : List α} {m m' : Found α}

@[simp] theorem after_nil : after prev [] = prev := rfl

@[simp] theorem after_append_cons : after prev (w ++ a :: t) = after (some a) t := by
  unfold after
  rw [List.getLast?_append, List.getLast?_cons]
  cases t.getLast? <;> rfl

@[simp] theorem after_cons : after prev (a :: t) = after (some a) t := after_append_cons (w := [])

/-! ### What a pattern can match -/

theorem mem_run_empty : m ∈ run .empty prev as ↔ m = ⟨[], as, []⟩ := List.mem_singleton

theorem mem_run_one : m ∈ run (.one p) prev as ↔ ∃ a, p a = true ∧ as = a :: m.rest ∧
    m.text = [a] ∧ m.groups = [] := by
  obtain ⟨text, rest, groups⟩ := m
  cases as with
  | nil => simp [run]
  | cons b bs =>
    unfold run
    by_cases hp : p b = true
    · rw [if_pos hp, List.mem_singleton, Found.mk.injEq]
      constructor
      · rintro ⟨rfl, rfl, rfl⟩
        exact ⟨b, hp, rfl, rfl, rfl⟩
      · rintro ⟨a, -, hab, rfl, rfl⟩
        obtain ⟨rfl, rfl⟩ := List.cons.inj hab
        exact ⟨rfl, rfl, rfl⟩
    · rw [if_neg hp]
      refine iff_of_false List.not_mem_nil ?_
      rintro ⟨a, ha, hab, -⟩
      obtain ⟨rfl, -⟩ := List.cons.inj hab
      exact hp ha

theorem mem_run_look : m ∈ run (.look q) prev as ↔
    q prev as.head? = true ∧ m = ⟨[], as, []⟩ := by
  unfold run
  by_cases hq : q prev as.head? = true
  · rw [if_pos hq, List.mem_singleton]
    exact (and_iff_right hq).symm
  · rw [if_neg hq]
    exact iff_of_false List.not_mem_nil fun h => hq h.1

theorem run_seq : run (.seq r s) prev as = (run r prev as).flatMap fun m =>
    (run s (after prev m.text) m.rest).map m.andThen := rfl

theorem run_opt : run (.opt r) prev as = run r prev as ++ [⟨[], as, []⟩] := rfl

theorem run_group : run (.group r) prev as =
    (run r prev as).map fun m => { m with groups := m.text :: m.groups } := rfl

theorem mem_run_seq : m ∈ run (.seq r s) prev as ↔ ∃ m₁ ∈ run r prev as,
    ∃ m₂ ∈ run s (after prev m₁.text) m₁.rest, m₁.andThen m₂ = m := by
  rw [run_seq]
  simp only [List.mem_flatMap, List.mem_map]

theorem mem_run_group : m ∈ run (.group r) prev as ↔
    ∃ m' ∈ run r prev as, ⟨m'.text, m'.rest, m'.text :: m'.groups⟩ = m := by
  rw [run_group, List.mem_map]

theorem mem_run_seqs : m ∈ run (seqs (r :: rs)) prev as ↔ ∃ m₁ ∈ run r prev as,
    ∃ m₂ ∈ run (seqs rs) (after prev m₁.text) m₁.rest, m₁.andThen m₂ = m := mem_run_seq

theorem mem_run_seqs_nil : m ∈ run (seqs []) prev as ↔ m = ⟨[], as, []⟩ := mem_run_empty

theorem mem_run_literal : ∀ {ps : List (α → Bool)} {prev : Option α} {as : List α} {m : Found α},
    m ∈ run (literal ps) prev as ↔ as = m.text ++ m.rest ∧ Spells ps m.text ∧ m.groups = []
  | [], _, as, ⟨text, rest, groups⟩ => by
    unfold literal Spells
    rw [mem_run_empty, List.forall₂_nil_left_iff, Found.mk.injEq]
    constructor
    · rintro ⟨rfl, rfl, rfl⟩
      exact ⟨rfl, rfl, rfl⟩
    · rintro ⟨hsplit, htext, hgroups⟩
      rw [htext] at hsplit
      exact ⟨htext, hsplit.symm, hgroups⟩
  | p :: ps, prev, as, ⟨text, rest, groups⟩ => by
    unfold literal Spells
    rw [mem_run_seq, List.forall₂_cons_left_iff]
    constructor
    · rintro ⟨⟨text₁, rest₁, groups₁⟩, h₁, ⟨text₂, rest₂, groups₂⟩, h₂, hm⟩
      obtain ⟨a, ha, has, htext, hgroups⟩ := mem_run_one.mp h₁
      obtain ⟨hrest, hspells, hgroups₂⟩ := mem_run_literal.mp h₂
      dsimp only at has htext hgroups hrest hspells hgroups₂
      obtain ⟨rfl, rfl, rfl⟩ := Found.mk.inj hm
      subst htext hgroups hgroups₂
      refine ⟨?_, ⟨a, text₂, ha, hspells, rfl⟩, rfl⟩
      rw [has, hrest]
      rfl
    · rintro ⟨hsplit, ⟨a, text₂, ha, hspells, htext⟩, hgroups⟩
      dsimp only at hsplit htext hgroups
      subst htext hgroups
      refine ⟨⟨[a], text₂ ++ rest, []⟩, mem_run_one.mpr ⟨a, ha, hsplit, rfl, rfl⟩,
        ⟨text₂, rest, []⟩, mem_run_literal.mpr ⟨rfl, hspells, rfl⟩, rfl⟩

/-! ### Repetitions -/

/-- No repetition at all is one way to match. -/
theorem nil_mem_run_star : ⟨[], as, []⟩ ∈ run (.star r) prev as := by
  have hnil : ∀ fuel, ⟨[], as, []⟩ ∈ repeated true (run r) fuel prev as
    | 0 => List.mem_singleton_self _
    | _ + 1 => List.mem_append_right _ (List.mem_singleton_self _)
  exact hnil as.length

theorem repeated_one_nil (eager : Bool) : ∀ fuel,
    repeated eager (run (.one p)) fuel prev [] = [⟨[], [], []⟩]
  | 0 => rfl
  | _ + 1 => by cases eager <;> rfl

theorem repeated_one_cons (eager : Bool) (fuel : ℕ) :
    repeated eager (run (.one p)) (fuel + 1) prev (a :: as) =
      let more := if p a then (repeated eager (run (.one p)) fuel (some a) as).map
        (Found.andThen ⟨[a], as, []⟩) else []
      if eager then more ++ [⟨[], a :: as, []⟩] else ⟨[], a :: as, []⟩ :: more := by
  have hone : run (.one p) prev (a :: as) = if p a then [⟨[a], as, []⟩] else [] := rfl
  rw [repeated, hone]
  by_cases hp : p a = true
  · rw [if_pos hp, if_pos hp]
    simp
  · rw [if_neg hp, if_neg hp]
    simp

/-- The texts that a repetition matches are those of the class. -/
theorem mem_repeated_one (eager : Bool) : ∀ {fuel : ℕ} {prev : Option α} {as : List α}
    {m : Found α}, as.length ≤ fuel → (m ∈ repeated eager (run (.one p)) fuel prev as ↔
      as = m.text ++ m.rest ∧ All p m.text ∧ m.groups = [])
  | fuel, prev, [], ⟨text, rest, groups⟩, _ => by
    rw [repeated_one_nil, List.mem_singleton, Found.mk.injEq]
    constructor
    · rintro ⟨rfl, rfl, rfl⟩
      exact ⟨rfl, nofun, rfl⟩
    · rintro ⟨hsplit, -, hgroups⟩
      obtain ⟨htext, hrest⟩ := List.append_eq_nil_iff.mp hsplit.symm
      exact ⟨htext, hrest, hgroups⟩
  | fuel + 1, prev, a :: as, ⟨text, rest, groups⟩, hfuel => by
    have hstep : (⟨text, rest, groups⟩ : Found α) ∈
        repeated eager (run (.one p)) (fuel + 1) prev (a :: as) ↔
          (⟨text, rest, groups⟩ : Found α) = ⟨[], a :: as, []⟩ ∨ p a = true ∧
            ∃ m ∈ repeated eager (run (.one p)) fuel (some a) as,
              Found.andThen ⟨[a], as, []⟩ m = ⟨text, rest, groups⟩ := by
      rw [repeated_one_cons]
      by_cases hp : p a = true
      · cases eager <;> simp [hp, or_comm]
      · cases eager <;> simp [hp]
    have hle : as.length ≤ fuel := Nat.le_of_succ_le_succ hfuel
    rw [hstep]
    constructor
    · rintro (hempty | ⟨hp, m, hm, hcons⟩)
      · obtain ⟨rfl, rfl, rfl⟩ := Found.mk.inj hempty
        exact ⟨rfl, nofun, rfl⟩
      · obtain ⟨hsplit, hall, hgroups⟩ := (mem_repeated_one eager hle).mp hm
        obtain ⟨rfl, rfl, rfl⟩ := Found.mk.inj hcons
        refine ⟨?_, ?_, ?_⟩
        · rw [hsplit]
          rfl
        · exact List.forall_mem_cons.mpr ⟨hp, hall⟩
        · rw [hgroups]
          rfl
    · rintro ⟨hsplit, hall, hgroups⟩
      dsimp only at hsplit hall hgroups
      rw [hgroups]
      cases text with
      | nil =>
        rw [List.nil_append] at hsplit
        rw [hsplit]
        exact .inl rfl
      | cons b text =>
        obtain ⟨rfl, rfl⟩ := List.cons.inj hsplit
        obtain ⟨hp, hall'⟩ := List.forall_mem_cons.mp hall
        exact .inr ⟨hp, ⟨text, rest, []⟩, (mem_repeated_one eager hle).mpr ⟨rfl, hall', rfl⟩, rfl⟩

theorem mem_run_star : m ∈ run (.star (.one p)) prev as ↔
    as = m.text ++ m.rest ∧ All p m.text ∧ m.groups = [] := mem_repeated_one true (Nat.le_refl _)

theorem mem_run_plus : m ∈ run (.plus (.one p)) prev as ↔
    as = m.text ++ m.rest ∧ m.text ≠ [] ∧ All p m.text ∧ m.groups = [] := by
  obtain ⟨text, rest, groups⟩ := m
  unfold Pattern.plus
  rw [mem_run_seq]
  constructor
  · rintro ⟨⟨text₁, rest₁, groups₁⟩, h₁, ⟨text₂, rest₂, groups₂⟩, h₂, hm⟩
    obtain ⟨a, ha, has, htext, hgroups⟩ := mem_run_one.mp h₁
    obtain ⟨hsplit, hall, hgroups₂⟩ := mem_run_star.mp h₂
    dsimp only at has htext hgroups hsplit hall hgroups₂
    obtain ⟨rfl, rfl, rfl⟩ := Found.mk.inj hm
    subst htext hgroups hgroups₂
    refine ⟨?_, List.cons_ne_nil a text₂, List.forall_mem_cons.mpr ⟨ha, hall⟩, rfl⟩
    rw [has, hsplit]
    rfl
  · rintro ⟨hsplit, hne, hall, hgroups⟩
    dsimp only at hsplit hne hall hgroups
    obtain ⟨a, text, rfl⟩ := List.exists_cons_of_ne_nil hne
    obtain ⟨ha, hall'⟩ := List.forall_mem_cons.mp hall
    subst hgroups
    exact ⟨⟨[a], text ++ rest, []⟩, mem_run_one.mpr ⟨a, ha, hsplit, rfl, rfl⟩,
      ⟨text, rest, []⟩, mem_run_star.mpr ⟨rfl, hall', rfl⟩, rfl⟩

/-! ### Patterns without groups -/

/-- The pattern captures nothing, and matches the texts of the language wherever
they stand. -/
def Matches (r : Pattern α) (Q : List α → Prop) : Prop :=
  ∀ (prev : Option α) (as : List α) (m : Found α),
    m ∈ run r prev as ↔ as = m.text ++ m.rest ∧ Q m.text ∧ m.groups = []

theorem matches_one : Matches (.one p) fun w => ∃ a, p a = true ∧ w = [a] := by
  intro prev as m
  rw [mem_run_one]
  constructor
  · rintro ⟨a, ha, has, htext, hgroups⟩
    refine ⟨?_, ⟨a, ha, htext⟩, hgroups⟩
    rw [has, htext]
    rfl
  · rintro ⟨hsplit, ⟨a, ha, htext⟩, hgroups⟩
    refine ⟨a, ha, ?_, htext, hgroups⟩
    rw [hsplit, htext]
    rfl

theorem matches_star : Matches (.star (.one p)) (All p) := fun _ _ _ => mem_run_star

theorem matches_plus : Matches (.plus (.one p)) fun w => w ≠ [] ∧ All p w := by
  intro prev as m
  rw [mem_run_plus, and_assoc]

theorem matches_literal : Matches (literal ps) (Spells ps) := fun _ _ _ => mem_run_literal

variable {Q Q' : List α → Prop}

/-- Such a pattern at the head of a sequence. -/
theorem Matches.mem_run_seqs (h : Matches r Q) : m ∈ run (seqs (r :: rs)) prev as ↔
    ∃ w t, as = w ++ t ∧ Q w ∧ ∃ m' ∈ run (seqs rs) (after prev w) t,
      m = ⟨w ++ m'.text, m'.rest, m'.groups⟩ := by
  rw [Regex.mem_run_seqs]
  constructor
  · rintro ⟨m₁, h₁, m₂, h₂, rfl⟩
    obtain ⟨hsplit, hQ, hgroups⟩ := (h _ _ _).mp h₁
    refine ⟨m₁.text, m₁.rest, hsplit, hQ, m₂, h₂, ?_⟩
    rw [Found.andThen, hgroups]
    rfl
  · rintro ⟨w, t, hsplit, hQ, m', hm', rfl⟩
    exact ⟨⟨w, t, []⟩, (h _ _ _).mpr ⟨hsplit, hQ, rfl⟩, m', hm', rfl⟩

theorem matches_nil : Matches (seqs ([] : List (Pattern α))) (· = []) := by
  intro prev as m
  rw [mem_run_seqs_nil]
  constructor
  · rintro rfl
    exact ⟨rfl, rfl, rfl⟩
  · rintro ⟨hsplit, htext, hgroups⟩
    rw [htext, List.nil_append] at hsplit
    rw [hsplit, ← htext, ← hgroups]

theorem Matches.seqs (h : Matches r Q) (hs : Matches (seqs rs) Q') :
    Matches (seqs (r :: rs)) fun w => ∃ w₁ w₂, w = w₁ ++ w₂ ∧ Q w₁ ∧ Q' w₂ := by
  intro prev as m
  rw [h.mem_run_seqs]
  constructor
  · rintro ⟨w, t, hsplit, hQ, m', hm', rfl⟩
    obtain ⟨hsplit', hQ', hgroups⟩ := (hs _ _ _).mp hm'
    refine ⟨?_, ⟨w, m'.text, rfl, hQ, hQ'⟩, hgroups⟩
    rw [hsplit, hsplit', List.append_assoc]
  · rintro ⟨hsplit, ⟨w₁, w₂, htext, hQ, hQ'⟩, hgroups⟩
    refine ⟨w₁, w₂ ++ m.rest, ?_, hQ, ⟨w₂, m.rest, []⟩, (hs _ _ _).mpr ⟨rfl, hQ', rfl⟩, ?_⟩
    · rw [hsplit, htext, List.append_assoc]
    · rw [← htext, ← hgroups]

/-- Such a pattern as a group at the head of a sequence. -/
theorem Matches.mem_run_group (h : Matches r Q) : m ∈ run (Regex.seqs (.group r :: rs)) prev as ↔
    ∃ w t, as = w ++ t ∧ Q w ∧ ∃ m' ∈ run (Regex.seqs rs) (after prev w) t,
      m = ⟨w ++ m'.text, m'.rest, w :: m'.groups⟩ := by
  rw [Regex.mem_run_seqs]
  constructor
  · rintro ⟨m₁, h₁, m₂, h₂, rfl⟩
    obtain ⟨m₃, h₃, rfl⟩ := Regex.mem_run_group.mp h₁
    obtain ⟨hsplit, hQ, hgroups⟩ := (h _ _ _).mp h₃
    refine ⟨m₃.text, m₃.rest, hsplit, hQ, m₂, h₂, ?_⟩
    rw [Found.andThen, hgroups]
    rfl
  · rintro ⟨w, t, hsplit, hQ, m', hm', rfl⟩
    exact ⟨⟨w, t, [w]⟩, Regex.mem_run_group.mpr ⟨⟨w, t, []⟩, (h _ _ _).mpr ⟨hsplit, hQ, rfl⟩, rfl⟩,
      m', hm', rfl⟩

/-! ### Which match comes first -/

theorem first_eq_none : first r prev as = none ↔ run r prev as = [] := List.head?_eq_none_iff

theorem mem_of_first (h : first r prev as = some m) : m ∈ run r prev as := List.mem_of_head? h

theorem first_seqs_nil : first (seqs []) prev as = some ⟨[], as, []⟩ := rfl

theorem first_one (h : p a = true) : first (.one p) prev (a :: as) = some ⟨[a], as, []⟩ := by
  unfold first
  rw [run, if_pos h]
  rfl

theorem first_look (h : q prev as.head? = true) :
    first (.look q) prev as = some ⟨[], as, []⟩ := by
  unfold first
  rw [run, if_pos h]
  rfl

theorem first_seq (h : first r prev as = some m)
    (h' : first s (after prev m.text) m.rest = some m') :
    first (.seq r s) prev as = some (m.andThen m') := by
  obtain ⟨ms, hms⟩ := List.head?_eq_some_iff.mp h
  obtain ⟨ms', hms'⟩ := List.head?_eq_some_iff.mp h'
  unfold first
  rw [run_seq, hms, List.flatMap_cons, hms']
  rfl

theorem first_seqs (h : first r prev as = some m)
    (h' : first (seqs rs) (after prev m.text) m.rest = some m') :
    first (seqs (r :: rs)) prev as = some (m.andThen m') := first_seq h h'

theorem first_group (h : first r prev as = some m) :
    first (.group r) prev as = some ⟨m.text, m.rest, m.text :: m.groups⟩ := by
  obtain ⟨ms, hms⟩ := List.head?_eq_some_iff.mp h
  unfold first
  rw [run_group, hms]
  rfl

theorem first_opt (h : first r prev as = some m) : first (.opt r) prev as = some m := by
  obtain ⟨ms, hms⟩ := List.head?_eq_some_iff.mp h
  unfold first
  rw [run_opt, hms]
  rfl

theorem first_opt_nil (h : run r prev as = []) : first (.opt r) prev as = some ⟨[], as, []⟩ := by
  unfold first
  rw [run_opt, h]
  rfl

theorem first_literal : ∀ {ps : List (α → Bool)} {w : List α} {prev : Option α},
    Spells ps w → first (literal ps) prev (w ++ as) = some ⟨w, as, []⟩
  | _, _, _, .nil => rfl
  | _, _, _, .cons hp hps => first_seq (first_one hp) (first_literal hps)

/-- A repetition first takes all it can. -/
theorem first_star : ∀ {w : List α} {prev : Option α}, All p w → Stops p as →
    first (.star (.one p)) prev (w ++ as) = some ⟨w, as, []⟩
  | [], prev, _, hstops => by
    unfold first
    rw [List.nil_append, run]
    cases as with
    | nil => rfl
    | cons a as =>
      have hp : p a = false := hstops a rfl
      rw [List.length_cons, repeated_one_cons, hp]
      rfl
  | a :: w, prev, hall, hstops => by
    obtain ⟨hp, hall'⟩ := List.forall_mem_cons.mp hall
    have ih : (repeated true (run (.one p)) (w ++ as).length (some a) (w ++ as)).head? =
        some ⟨w, as, []⟩ := first_star hall' hstops
    obtain ⟨ms, hms⟩ := List.head?_eq_some_iff.mp ih
    unfold first
    rw [List.cons_append, run, List.length_cons, repeated_one_cons, hp, hms]
    rfl

theorem first_star_takeWhile : first (.star (.one p)) prev as =
    some ⟨as.takeWhile p, as.dropWhile p, []⟩ := by
  have hsplit : as.takeWhile p ++ as.dropWhile p = as := List.takeWhile_append_dropWhile
  have hstops : Stops p (as.dropWhile p) := by
    intro a ha
    have hnot := List.head?_dropWhile_not p as
    rw [ha] at hnot
    exact hnot
  have htake : All p (as.takeWhile p) := fun a ha => List.mem_takeWhile_imp ha
  conv_lhs => rw [← hsplit]
  exact first_star htake hstops

/-- Each block is what the pattern first takes at its place, and after the last it
takes nothing. -/
def Fits (r : Pattern α) : List (List α) → List α → Prop
  | [], rest => ∀ prev, run r prev rest = []
  | block :: blocks, rest => block ≠ [] ∧
    (∀ prev, first r prev (block ++ (blocks.flatten ++ rest)) =
      some ⟨block, blocks.flatten ++ rest, []⟩) ∧ Fits r blocks rest

/-- A repetition first takes the blocks that fit. -/
theorem first_repeated : ∀ {blocks : List (List α)} {fuel : ℕ} {prev : Option α},
    blocks.length ≤ fuel → Fits r blocks as →
      (repeated true (run r) fuel prev (blocks.flatten ++ as)).head? =
        some ⟨blocks.flatten, as, []⟩
  | [], 0, _, _, _ => rfl
  | [], fuel + 1, prev, _, hfits => by
    have hnone : run r prev as = [] := hfits prev
    rw [List.flatten_nil, List.nil_append, repeated, hnone]
    rfl
  | block :: blocks, fuel + 1, prev, hfuel, hfits => by
    obtain ⟨hne, hfirst, hrest⟩ := hfits
    obtain ⟨ms, hms⟩ := List.head?_eq_some_iff.mp (hfirst prev)
    have ih : (repeated true (run r) fuel (after prev block) (blocks.flatten ++ as)).head? =
        some ⟨blocks.flatten, as, []⟩ := first_repeated (Nat.le_of_succ_le_succ hfuel) hrest
    obtain ⟨ns, hns⟩ := List.head?_eq_some_iff.mp ih
    rw [List.flatten_cons, List.append_assoc, repeated, hms,
      List.filter_cons_of_pos (by simpa using hne), List.flatMap_cons, hns]
    simp [Found.andThen]

theorem length_le_flatten : ∀ {blocks : List (List α)}, Fits r blocks as →
    blocks.length ≤ blocks.flatten.length
  | [], _ => Nat.zero_le _
  | block :: blocks, hfits => by
    have hpos : 0 < block.length := List.length_pos_iff.mpr hfits.1
    have ih := length_le_flatten hfits.2.2
    rw [List.length_cons, List.flatten_cons, List.length_append]
    omega

theorem first_star_blocks {blocks : List (List α)} (h : Fits r blocks as) :
    first (.star r) prev (blocks.flatten ++ as) = some ⟨blocks.flatten, as, []⟩ := by
  refine first_repeated ?_ h
  rw [List.length_append]
  exact (length_le_flatten h).trans (Nat.le_add_right _ _)

theorem first_plus (hne : w ≠ []) (hall : All p w) (hstops : Stops p as) :
    first (.plus (.one p)) prev (w ++ as) = some ⟨w, as, []⟩ := by
  obtain ⟨a, w, rfl⟩ := List.exists_cons_of_ne_nil hne
  obtain ⟨hp, hall'⟩ := List.forall_mem_cons.mp hall
  exact first_seq (first_one hp) (first_star hall' hstops)

end

/-! ### Searching -/

section

variable {r : Pattern α} {m : Found α}

theorem find_eq_none : ∀ {as : List α} {prev : Option α}, find r prev as = none ↔
    ∀ pre s, as = pre ++ s → run r (after prev pre) s = []
  | [], prev => by
    unfold find
    constructor
    · intro h pre s hsplit
      obtain ⟨rfl, rfl⟩ := List.append_eq_nil_iff.mp hsplit.symm
      by_contra hne
      rw [after_nil] at hne
      rw [if_neg (by simpa using hne)] at h
      cases h
    · intro h
      rw [if_pos (by simpa using h [] [] rfl)]
  | a :: as, prev => by
    unfold find
    by_cases hempty : run r prev (a :: as) = []
    · rw [if_pos (by simpa using hempty), find_eq_none]
      constructor
      · intro h pre s hsplit
        cases pre with
        | nil =>
          rw [List.nil_append] at hsplit
          rw [after_nil, ← hsplit]
          exact hempty
        | cons b pre =>
          obtain ⟨rfl, hsplit'⟩ := List.cons.inj hsplit
          rw [after_cons]
          exact h pre s hsplit'
      · intro h pre s hsplit
        have hprev : after prev (a :: pre) = after (some a) pre := after_cons
        rw [← hprev]
        refine h (a :: pre) s ?_
        rw [hsplit]
        rfl
    · rw [if_neg (by simpa using hempty)]
      refine iff_of_false nofun fun h => hempty ?_
      exact h [] (a :: as) rfl

/-- **The first place** with a match: no place before it has one. -/
theorem find_eq_some : ∀ {as : List α} {prev q : Option α} {s : List α},
    find r prev as = some (q, s) ↔ ∃ pre, as = pre ++ s ∧ q = after prev pre ∧ run r q s ≠ [] ∧
      ∀ pre' s', as = pre' ++ s' → pre'.length < pre.length → run r (after prev pre') s' = []
  | [], prev, q, s => by
    unfold find
    constructor
    · intro h
      by_cases hempty : run r prev [] = []
      · rw [if_pos (by simpa using hempty)] at h
        cases h
      · rw [if_neg (by simpa using hempty)] at h
        obtain ⟨rfl, rfl⟩ := Prod.mk.inj (Option.some.inj h)
        exact ⟨[], rfl, rfl, hempty, fun _ _ _ hlt => absurd hlt (Nat.not_lt_zero _)⟩
    · rintro ⟨pre, hsplit, rfl, hne, -⟩
      obtain ⟨rfl, rfl⟩ := List.append_eq_nil_iff.mp hsplit.symm
      rw [if_neg (by simpa using hne)]
      rfl
  | a :: as, prev, q, s => by
    unfold find
    by_cases hempty : run r prev (a :: as) = []
    · rw [if_pos (by simpa using hempty), find_eq_some]
      constructor
      · rintro ⟨pre, hsplit, hq, hne, hbefore⟩
        refine ⟨a :: pre, by rw [hsplit]; rfl, by rw [hq, after_cons], hne, ?_⟩
        intro pre' s' hsplit' hlt
        cases pre' with
        | nil =>
          rw [List.nil_append] at hsplit'
          rw [after_nil, ← hsplit']
          exact hempty
        | cons b pre' =>
          obtain ⟨rfl, hsplit''⟩ := List.cons.inj hsplit'
          rw [after_cons]
          exact hbefore pre' s' hsplit'' (Nat.lt_of_succ_lt_succ hlt)
      · rintro ⟨pre, hsplit, hq, hne, hbefore⟩
        cases pre with
        | nil =>
          rw [List.nil_append] at hsplit
          rw [hq, after_nil, ← hsplit] at hne
          exact absurd hempty hne
        | cons b pre =>
          obtain ⟨rfl, hsplit'⟩ := List.cons.inj hsplit
          refine ⟨pre, hsplit', by rw [hq, after_cons], hne, ?_⟩
          intro pre' s' hsplit'' hlt
          have hprev : after prev (a :: pre') = after (some a) pre' := after_cons
          rw [← hprev]
          refine hbefore (a :: pre') s' ?_ (Nat.succ_lt_succ hlt)
          rw [hsplit'']
          rfl
    · rw [if_neg (by simpa using hempty)]
      constructor
      · intro h
        obtain ⟨rfl, rfl⟩ := Prod.mk.inj (Option.some.inj h)
        exact ⟨[], rfl, rfl, hempty, fun _ _ _ hlt => absurd hlt (Nat.not_lt_zero _)⟩
      · rintro ⟨pre, hsplit, hq, hne, hbefore⟩
        cases pre with
        | nil =>
          rw [List.nil_append] at hsplit
          rw [hsplit, hq]
          rfl
        | cons b pre => exact absurd (hbefore [] (a :: as) rfl (Nat.succ_pos _)) hempty

theorem search_eq_none {as : List α} : search r as = none ↔ find r none as = none := by
  unfold search
  cases hfind : find r none as with
  | none => simp
  | some place =>
    obtain ⟨_, -, -, hne, -⟩ := find_eq_some.mp hfind
    simpa using first_eq_none.not.mpr hne

end

/-! ### Places that do not depend on what is before them -/

/-- The first place in a text from which on `E` holds: the text from there. -/
inductive FirstPlace (E : List α → Prop) : List α → List α → Prop where
  | here {s} (h : E s) : FirstPlace E s s
  | there {a as s} (hno : ¬ E (a :: as)) (h : FirstPlace E as s) : FirstPlace E (a :: as) s

/-- There is no such place. -/
def Nowhere (E : List α → Prop) (as : List α) : Prop := ∀ s, s <:+ as → ¬ E s

section

variable {E : List α → Prop} {r : Pattern α} {a : α} {as s tail : List α} {prev q : Option α}

theorem FirstPlace.holds (h : FirstPlace E as s) : E s := by
  induction h with
  | here h => exact h
  | there _ _ ih => exact ih

theorem firstPlace_cons (hno : ¬ E (a :: as)) : FirstPlace E (a :: as) s ↔ FirstPlace E as s := by
  constructor
  · intro h
    cases h with
    | here h => exact absurd h hno
    | there _ h => exact h
  · exact .there hno

theorem nowhere_cons : Nowhere E (a :: as) ↔ ¬ E (a :: as) ∧ Nowhere E as := by
  unfold Nowhere
  simp only [List.suffix_cons_iff]
  constructor
  · exact fun h => ⟨h _ (.inl rfl), fun s hs => h s (.inr hs)⟩
  · rintro ⟨hno, h⟩ s (rfl | hs)
    · exact hno
    · exact h s hs

/-- A part of the text in which no such place is can be skipped. -/
theorem firstPlace_append : ∀ {head : List α},
    (∀ pre s, head = pre ++ s → s ≠ [] → ¬ E (s ++ tail)) →
    (FirstPlace E (head ++ tail) s ↔ FirstPlace E tail s)
  | [], _ => Iff.rfl
  | a :: head, h => by
    have hno : ¬ E (a :: (head ++ tail)) := h [] (a :: head) rfl (List.cons_ne_nil a head)
    rw [List.cons_append, firstPlace_cons hno]
    refine firstPlace_append fun pre s hsplit hne => ?_
    exact h (a :: pre) s (by rw [hsplit]; rfl) hne

theorem nowhere_append : ∀ {head : List α},
    (∀ pre s, head = pre ++ s → s ≠ [] → ¬ E (s ++ tail)) →
    (Nowhere E (head ++ tail) ↔ Nowhere E tail)
  | [], _ => Iff.rfl
  | a :: head, h => by
    have hno : ¬ E (a :: (head ++ tail)) := h [] (a :: head) rfl (List.cons_ne_nil a head)
    rw [List.cons_append, nowhere_cons, and_iff_right hno]
    refine nowhere_append fun pre s hsplit hne => ?_
    exact h (a :: pre) s (by rw [hsplit]; rfl) hne

variable (hE : ∀ prev s, run r prev s ≠ [] ↔ E s)

include hE

/-- A pattern that matches where `E` holds is found at the first such place. -/
theorem firstPlace_of_find : ∀ {as : List α} {prev : Option α},
    find r prev as = some (q, s) → FirstPlace E as s
  | [], prev, h => by
    obtain ⟨pre, hsplit, -, hne, -⟩ := find_eq_some.mp h
    obtain ⟨-, rfl⟩ := List.append_eq_nil_iff.mp hsplit.symm
    exact .here ((hE q []).mp hne)
  | a :: as, prev, h => by
    unfold find at h
    by_cases hempty : run r prev (a :: as) = []
    · rw [if_pos (by simpa using hempty)] at h
      exact .there (fun hholds => (hE prev _).mpr hholds hempty) (firstPlace_of_find h)
    · rw [if_neg (by simpa using hempty)] at h
      rw [← (Prod.mk.inj (Option.some.inj h)).2]
      exact .here ((hE prev _).mp hempty)

theorem find_of_firstPlace (h : FirstPlace E as s) : ∀ prev, ∃ q, find r prev as = some (q, s) := by
  induction h with
  | @here s h =>
    intro prev
    have hne := (hE prev s).mpr h
    refine ⟨prev, find_eq_some.mpr ⟨[], rfl, rfl, hne, ?_⟩⟩
    exact fun _ _ _ hlt => absurd hlt (Nat.not_lt_zero _)
  | @there a as s hno _ ih =>
    intro prev
    have hempty : run r prev (a :: as) = [] := by
      by_contra hne
      exact hno ((hE prev _).mp hne)
    obtain ⟨q, hq⟩ := ih (some a)
    refine ⟨q, ?_⟩
    unfold find
    rw [if_pos (by simpa using hempty)]
    exact hq

theorem find_eq_none_iff : find r prev as = none ↔ Nowhere E as := by
  rw [find_eq_none]
  constructor
  · rintro h s ⟨pre, hsplit⟩ hholds
    exact (hE _ s).mpr hholds (h pre s hsplit.symm)
  · intro h pre s hsplit
    by_contra hne
    exact h s ⟨pre, hsplit.symm⟩ ((hE _ s).mp hne)

end

/-! ### What is captured -/

/-- A match is of the beginning of the text, and what its groups captured is part of it. -/
structure Captures (as : List α) (m : Found α) : Prop where
  split : as = m.text ++ m.rest
  groups : ∀ g ∈ m.groups, g <:+: m.text

section

variable {r : Pattern α} {as : List α} {m m' : Found α}

theorem captures_nil : Captures as ⟨[], as, []⟩ := ⟨rfl, fun _ hg => absurd hg List.not_mem_nil⟩

theorem Captures.andThen (h : Captures as m) (h' : Captures m.rest m') :
    Captures as (m.andThen m') where
  split := by
    rw [h.split, h'.split]
    exact (List.append_assoc _ _ _).symm
  groups g hg := by
    rcases List.mem_append.mp hg with hg | hg
    · exact (h.groups g hg).trans (List.prefix_append _ _).isInfix
    · exact (h'.groups g hg).trans (List.suffix_append _ _).isInfix

theorem captures_of_repeated {eager : Bool} {f : Option α → List α → List (Found α)}
    (hf : ∀ prev as, ∀ m ∈ f prev as, Captures as m) : ∀ {fuel : ℕ} {prev : Option α}
      {as : List α} {m : Found α}, m ∈ repeated eager f fuel prev as → Captures as m
  | 0, _, _, _, h => by
    rw [List.mem_singleton.mp h]
    exact captures_nil
  | fuel + 1, prev, as, m, h => by
    have hcases : m = ⟨[], as, []⟩ ∨ ∃ m₁ ∈ f prev as,
        ∃ m₂ ∈ repeated eager f fuel (after prev m₁.text) m₁.rest, m₁.andThen m₂ = m := by
      unfold repeated at h
      dsimp only at h
      split_ifs at h
      · rcases List.mem_append.mp h with h | h
        · obtain ⟨m₁, hm₁, h⟩ := List.mem_flatMap.mp h
          exact Or.inr ⟨m₁, (List.mem_filter.mp hm₁).1, List.mem_map.mp h⟩
        · exact Or.inl (List.mem_singleton.mp h)
      · rcases List.mem_cons.mp h with h | h
        · exact Or.inl h
        · obtain ⟨m₁, hm₁, h⟩ := List.mem_flatMap.mp h
          exact Or.inr ⟨m₁, (List.mem_filter.mp hm₁).1, List.mem_map.mp h⟩
    rcases hcases with rfl | ⟨m₁, hm₁, m₂, hm₂, rfl⟩
    · exact captures_nil
    · exact (hf prev as m₁ hm₁).andThen (captures_of_repeated hf hm₂)

/-- **Every way to match** captures parts of the text. -/
theorem captures_of_mem_run (r : Pattern α) : ∀ (prev : Option α) (as : List α),
    ∀ m ∈ run r prev as, Captures as m := by
  induction r with
  | empty =>
    intro prev as m h
    rw [mem_run_empty.mp h]
    exact captures_nil
  | one p =>
    intro prev as m h
    obtain ⟨a, -, hsplit, htext, hgroups⟩ := mem_run_one.mp h
    refine ⟨by rw [hsplit, htext]; rfl, fun g hg => ?_⟩
    rw [hgroups] at hg
    cases hg
  | look q =>
    intro prev as m h
    rw [(mem_run_look.mp h).2]
    exact captures_nil
  | seq r s ihr ihs =>
    intro prev as m h
    rw [run_seq] at h
    obtain ⟨m₁, hm₁, h⟩ := List.mem_flatMap.mp h
    obtain ⟨m₂, hm₂, rfl⟩ := List.mem_map.mp h
    exact (ihr prev as m₁ hm₁).andThen (ihs _ _ m₂ hm₂)
  | star r ih => exact fun _ _ _ h => captures_of_repeated ih h
  | lazyStar r ih => exact fun _ _ _ h => captures_of_repeated ih h
  | opt r ih =>
    intro prev as m h
    rcases List.mem_append.mp h with h | h
    · exact ih prev as m h
    · rw [List.mem_singleton.mp h]
      exact captures_nil
  | group r ih =>
    intro prev as m h
    obtain ⟨m₁, hm₁, rfl⟩ := List.mem_map.mp h
    have hcaptures := ih prev as m₁ hm₁
    refine ⟨hcaptures.split, fun g hg => ?_⟩
    rcases List.mem_cons.mp hg with rfl | hg
    · exact List.infix_rfl
    · exact hcaptures.groups g hg

/-- What a search captures is part of the text. -/
theorem infix_of_search (h : search r as = some m) : ∀ g ∈ m.groups, g <:+: as := by
  obtain ⟨⟨q, s⟩, hfind, hfirst⟩ := Option.bind_eq_some_iff.mp h
  obtain ⟨pre, rfl, -⟩ := find_eq_some.mp hfind
  have hcaptures := captures_of_mem_run r q s m (mem_of_first hfirst)
  intro g hg
  have htext : m.text <:+: s := ⟨[], m.rest, hcaptures.split.symm⟩
  exact ((hcaptures.groups g hg).trans htext).trans (List.suffix_append pre s).isInfix

theorem infix_of_matchStart (h : matchStart r as = some m) :
    m.text <+: as ∧ ∀ g ∈ m.groups, g <:+: as := by
  have hcaptures := captures_of_mem_run r none as m (mem_of_first h)
  have htext : m.text <+: as := ⟨m.rest, hcaptures.split.symm⟩
  exact ⟨htext, fun g hg => (hcaptures.groups g hg).trans htext.isInfix⟩

end

end Regex
