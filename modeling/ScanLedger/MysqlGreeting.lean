/-
# MySQL greetings

A server of the MySQL family greets with its version as a text that ends in a
NUL. The table tries MySQL before MariaDB, and the pattern of MySQL asks for
three runs of digits from which letters, digits, underscores and dashes reach
the NUL. A MariaDB server whose version has nothing else is taken for MySQL, and
a MySQL server whose version does have something else is identified by what
comes later in its greeting, if at all.

Key definitions: `Greeting`, `Ended`, `ReadsTriple`, `MariaRun`, `ReportsServer`,
`ReadsAsMeant`.
Key theorems: `search_mySQL_iff`, `search_mariaDB_iff`, `reportsServer_iff`.
-/
import ScanLedger.Fingerprints

namespace ScanLedger

open Regex BannerEntry

/-- A greeting: what comes before the version, the version in its parts, and
what comes after it. -/
structure Greeting (u : CharTables) where
  before : List Char
  x : List Char
  y : List Char
  z : List Char
  suffix : List Char
  rest : List Char
  before_digits : ∀ c ∈ before, digit u c = false
  x_digits : Digits u x
  y_digits : Digits u y
  z_digits : Digits u z
  suffix_dash : ∀ c ∈ suffix.head?, c = '-'
  suffix_nul : '\x00' ∉ suffix

section

variable {u : CharTables} (g : Greeting u)

/-- The three runs. -/
def Greeting.number : List Char := g.x ++ '.' :: (g.y ++ '.' :: g.z)

def Greeting.version : List Char := g.number ++ g.suffix

/-- What follows the three runs. -/
def Greeting.tail : List Char := g.suffix ++ '\x00' :: g.rest

def Greeting.banner : String := String.ofList (g.before ++ '\n' :: (g.number ++ g.tail))

variable (u)

/-- A whole run of digits and dots in the text, with `-MariaDB` right after it. -/
def MariaRun (text run : List Char) : Prop :=
  ∃ a b, text = a ++ run ++ "-MariaDB".toList ++ b ∧ run ≠ [] ∧ All (digitDot u) run ∧
    ∀ c ∈ a.getLast?, digitDot u c = false

/-- Three runs of digits, from which letters, digits, underscores and dashes
reach a NUL. -/
def Ended (s : List Char) : Prop :=
  ∃ t w post, s = t ++ (w ++ '\x00' :: post) ∧ Triple u t ∧ All (wordDash u) w

/-- The first such place in the text reads so. -/
def ReadsTriple (text t : List Char) : Prop :=
  ∃ w post, FirstPlace (Ended u) text (t ++ (w ++ '\x00' :: post)) ∧ Triple u t ∧
    All (wordDash u) w ∧ Stops (digit u) w

/-- Digits and dots right before `-MariaDB` in any case. -/
def BeforeMaria (s : List Char) : Prop :=
  ∃ run w post, s = run ++ (w ++ post) ∧ run ≠ [] ∧ All (digitDot u) run ∧ Reads "-MariaDB" w

/-- The first such place in the text reads so. -/
def ReadsMaria (text run : List Char) : Prop :=
  ∃ w post, FirstPlace (BeforeMaria u) text (run ++ (w ++ post)) ∧ run ≠ [] ∧
    All (digitDot u) run ∧ Reads "-MariaDB" w

variable {u}

/-- The version names MariaDB. -/
def Greeting.NamesMaria : Prop := ∃ run, MariaRun u g.version run

/-- The server's own product and version. -/
def ReportsServer (port : ℤ) : Prop :=
  ∃ guess, identifyFromBanner u g.banner port = some guess ∧
    (g.NamesMaria → guess.product = some "MariaDB" ∧
      ∃ run, MariaRun u g.version run ∧ guess.version = some (String.ofList run)) ∧
    (¬ g.NamesMaria → guess.product = some "MySQL" ∧
      guess.version = some (String.ofList g.number))

/-- When the version names MariaDB, no three runs of digits are ended, neither
its own nor later ones, and the first that is read before `-MariaDB` is a run of
the version. When it does not, its own three runs are ended, or the first that
are read the same. -/
structure ReadsAsMeant : Prop where
  maria : g.NamesMaria → ¬ All (wordDash u) g.suffix ∧ Nowhere (Ended u) g.tail ∧
    ∃ run, ReadsMaria u g.banner.toList run ∧ MariaRun u g.version run
  mysql : ¬ g.NamesMaria → All (wordDash u) g.suffix ∨ ReadsTriple u g.tail g.number

end

/-! ### Characters of a greeting -/

section

variable {u : CharTables} {c : Char} {before : Option Char} {s t w post : List Char}
  {banner : String}

theorem wordDash_nul : wordDash u '\x00' = false := by
  unfold wordDash word
  rw [u.alnum_ascii '\x00' (by decide)]
  rfl

theorem stops_nul : Stops (wordDash u) ('\x00' :: post) := by
  intro c hc
  rw [← Option.some.inj hc]
  exact wordDash_nul

theorem stops_append_nul (h : Stops (digit u) w) : Stops (digit u) (w ++ '\x00' :: post) := by
  intro c hc
  cases w with
  | nil =>
    rw [← Option.some.inj hc]
    exact digit_nul
  | cons a w => exact h c hc

/-! ### The pattern of MySQL -/

theorem run_mySQL (before : Option Char) (s : List Char) :
    run (bannerPattern u mySQL).pattern before s ≠ [] ↔ Ended u s := by
  constructor
  · intro hne
    obtain ⟨m, hm⟩ := List.exists_mem_of_ne_nil _ hne
    obtain ⟨t, s, rfl, ht, m₁, h₁, -⟩ := matches_dottedTriple.mem_run_group.mp hm
    obtain ⟨w, s, rfl, hw, m₂, h₂, -⟩ := matches_star.mem_run_seqs.mp h₁
    obtain ⟨_, post, rfl, ⟨c, hc, rfl⟩, -⟩ := matches_one.mem_run_seqs.mp h₂
    rw [beq_iff_eq.mp hc]
    exact ⟨t, w, post, rfl, ht, hw⟩
  · rintro ⟨t, w, post, rfl, ht, hw⟩
    exact List.ne_nil_of_mem (matches_dottedTriple.mem_run_group.mpr ⟨t, _, rfl, ht, _,
      matches_star.mem_run_seqs.mpr ⟨w, _, rfl, hw, _, matches_one.mem_run_seqs.mpr
        ⟨['\x00'], post, rfl, ⟨'\x00', rfl, rfl⟩, _, mem_run_seqs_nil.mpr rfl, rfl⟩, rfl⟩, rfl⟩)

/-- The runs are taken whole. -/
theorem first_dottedTriple (ht : Triple u t) (hstops : Stops (digit u) s) :
    first (dottedTriple u) before (t ++ s) = some ⟨t, s, []⟩ := by
  obtain ⟨x, y, z, ⟨hx, hxs⟩, ⟨hy, hys⟩, ⟨hz, hzs⟩, rfl⟩ := ht
  have hdot : ∀ rest, Stops (digit u) ('.' :: rest) := by
    intro rest c hc
    rw [← Option.some.inj hc]
    exact digit_dot
  have hsplit : (x ++ '.' :: (y ++ '.' :: z)) ++ s = x ++ '.' :: (y ++ '.' :: (z ++ s)) := by
    simp
  rw [hsplit]
  refine (first_seqs (first_plus hx hxs (hdot _)) (first_seqs (first_one rfl) (first_seqs
    (first_plus hy hys (hdot _)) (first_seqs (first_one rfl) (first_seqs
      (first_plus hz hzs hstops) first_seqs_nil))))).trans ?_
  simp [Found.andThen]

theorem first_mySQL (before : Option Char) (post : List Char) (ht : Triple u t)
    (hw : All (wordDash u) w) (hstops : Stops (digit u) w) :
    ∃ m, first (bannerPattern u mySQL).pattern before (t ++ (w ++ '\x00' :: post)) = some m ∧
      m.groups = [t] :=
  ⟨_, first_seqs (first_group (first_dottedTriple ht (stops_append_nul hstops)))
    (first_seqs (first_star hw stops_nul) (first_seqs (first_one rfl) first_seqs_nil)), rfl⟩

/-- The third run can be taken whole. -/
theorem exists_whole (h : Ended u s) : ∃ t w post, s = t ++ (w ++ '\x00' :: post) ∧
    Triple u t ∧ All (wordDash u) w ∧ Stops (digit u) w := by
  obtain ⟨_, w, post, rfl, ⟨x, y, z, hx, hy, ⟨hz, hzs⟩, rfl⟩, hw⟩ := h
  have hsplit : w.takeWhile (digit u) ++ w.dropWhile (digit u) = w :=
    List.takeWhile_append_dropWhile
  refine ⟨x ++ '.' :: (y ++ '.' :: (z ++ w.takeWhile (digit u))), w.dropWhile (digit u), post,
    ?_, ⟨x, y, z ++ w.takeWhile (digit u), hx, hy, ⟨List.append_ne_nil_of_left_ne_nil hz _, ?_⟩,
      rfl⟩, ?_, ?_⟩
  · have hw' : w ++ '\x00' :: post =
        w.takeWhile (digit u) ++ (w.dropWhile (digit u) ++ '\x00' :: post) := by
      rw [← List.append_assoc, hsplit]
    rw [hw']
    simp
  · exact List.forall_mem_append.mpr ⟨hzs, fun c hc => List.mem_takeWhile_imp hc⟩
  · exact fun c hc => hw c ((List.dropWhile_sublist _).mem hc)
  · intro c hc
    have hnot := List.head?_dropWhile_not (digit u) w
    rw [hc] at hnot
    exact hnot

/-- What MySQL is given for a version. -/
theorem search_mySQL_iff : (∃ m, mySQL.search u banner = some m ∧ statedVersion m = some t) ↔
    ReadsTriple u banner.toList t := by
  constructor
  · rintro ⟨m, hm, hversion⟩
    obtain ⟨⟨q, s⟩, hfind, hfirst⟩ := search_eq_some.mp hm
    have hplace := firstPlace_of_find run_mySQL hfind
    obtain ⟨t', w, post, rfl, ht, hw, hstops⟩ := exists_whole hplace.holds
    obtain ⟨m', hm', hgroups⟩ := first_mySQL q post ht hw hstops
    rw [← Option.some.inj (hfirst.symm.trans hm')] at hgroups
    rw [statedVersion_eq (triple_ne_nil ht) hgroups] at hversion
    rw [← Option.some.inj hversion]
    exact ⟨w, post, hplace, ht, hw, hstops⟩
  · rintro ⟨w, post, hplace, ht, hw, hstops⟩
    obtain ⟨q, hq⟩ := find_of_firstPlace run_mySQL hplace none
    obtain ⟨m, hm, hgroups⟩ := first_mySQL q post ht hw hstops
    exact ⟨m, search_eq_some.mpr ⟨_, hq, hm⟩, statedVersion_eq (triple_ne_nil ht) hgroups⟩

theorem search_mySQL_eq_none : mySQL.search u banner = none ↔ Nowhere (Ended u) banner.toList :=
  search_eq_none.trans (find_eq_none_iff run_mySQL)

/-! ### The pattern of MariaDB -/

theorem run_mariaDB (before : Option Char) (s : List Char) :
    run (bannerPattern u mariaDB).pattern before s ≠ [] ↔ BeforeMaria u s := by
  constructor
  · intro hne
    obtain ⟨m, hm⟩ := List.exists_mem_of_ne_nil _ hne
    obtain ⟨run, s, rfl, ⟨hrun, hall⟩, m₁, h₁, -⟩ := mem_run_numberGroup.mp hm
    obtain ⟨w, post, rfl, hname, -⟩ := mem_run_ignoreCase.mp h₁
    exact ⟨run, w, post, rfl, hrun, hall, hname⟩
  · rintro ⟨run, w, post, rfl, hrun, hall, hname⟩
    exact List.ne_nil_of_mem (mem_run_numberGroup.mpr ⟨run, _, rfl, ⟨hrun, hall⟩, _,
      mem_run_ignoreCase.mpr ⟨w, post, rfl, hname, _, mem_run_seqs_nil.mpr rfl, rfl⟩, rfl⟩)

theorem first_mariaDB (before : Option Char) (post : List Char) {run : List Char}
    (hne : run ≠ []) (hall : All (digitDot u) run) (hname : Reads "-MariaDB" w) :
    ∃ m, first (bannerPattern u mariaDB).pattern before (run ++ (w ++ post)) = some m ∧
      m.groups = [run] := by
  have hstops : Stops (digitDot u) (w ++ post) := by
    intro c hc
    rw [List.head?_append, head_reads hname] at hc
    rw [← Option.some.inj hc]
    exact digitDot_dash
  exact ⟨_, first_seqs (first_group (first_plus hne hall hstops))
    (first_ignoreCase hname first_seqs_nil), rfl⟩

/-- What MariaDB is given for a version. -/
theorem search_mariaDB_iff {run : List Char} :
    (∃ m, mariaDB.search u banner = some m ∧ statedVersion m = some run) ↔
      ReadsMaria u banner.toList run := by
  constructor
  · rintro ⟨m, hm, hversion⟩
    obtain ⟨⟨q, s⟩, hfind, hfirst⟩ := search_eq_some.mp hm
    have hplace := firstPlace_of_find run_mariaDB hfind
    obtain ⟨run', w, post, rfl, hne, hall, hname⟩ := hplace.holds
    obtain ⟨m', hm', hgroups⟩ := first_mariaDB q post hne hall hname
    rw [← Option.some.inj (hfirst.symm.trans hm')] at hgroups
    rw [statedVersion_eq hne hgroups] at hversion
    rw [← Option.some.inj hversion]
    exact ⟨w, post, hplace, hne, hall, hname⟩
  · rintro ⟨w, post, hplace, hne, hall, hname⟩
    obtain ⟨q, hq⟩ := find_of_firstPlace run_mariaDB hplace none
    obtain ⟨m, hm, hgroups⟩ := first_mariaDB q post hne hall hname
    exact ⟨m, search_eq_some.mpr ⟨_, hq, hm⟩, statedVersion_eq hne hgroups⟩

/-! ### The guesses -/

variable {version : List Char}

/-- An entry is what the banner is identified as when no earlier one is found. -/
theorem guess_iff (entry : BannerEntry) (port : ℤ) :
    (∃ guess, identifyFromBanner u banner port = some guess ∧
      guess.product = some (bannerPattern u entry).product ∧
      guess.version = some (String.ofList version)) ↔
    (∀ e ∈ entry.earlier, e.search u banner = none) ∧
      ∃ m, entry.search u banner = some m ∧ statedVersion m = some version := by
  constructor
  · rintro ⟨guess, hguess, hname, hversion⟩
    obtain ⟨e, m, hfirst, rfl⟩ := identifyFromBanner_eq_some.mp hguess
    obtain rfl := product_injective (Option.some.inj hname)
    obtain ⟨v, hv, htext⟩ := Option.map_eq_some_iff.mp hversion
    rw [String.ofList_injective htext] at hv
    exact ⟨hfirst.earlier, m, hfirst.found, hv⟩
  · rintro ⟨hearlier, m, hfound, hversion⟩
    refine ⟨entry.guess u m, identifyFromBanner_eq_some.mpr ⟨entry, m, ⟨hearlier, hfound⟩, rfl⟩,
      rfl, ?_⟩
    unfold BannerEntry.guess
    rw [hversion]
    rfl

/-! ### Where runs can be ended -/

theorem notMem_of_all {p : Char → Bool} (hall : All p w) (hno : p c = false) : c ∉ w := by
  intro hc
  rw [hall c hc] at hno
  cases hno

/-- Ended runs begin with a digit. -/
theorem Ended.head (h : Ended u s) : ∃ c ∈ s.head?, digit u c = true := by
  obtain ⟨_, w, post, rfl, ⟨x, y, z, ⟨hx, hxs⟩, -, -, rfl⟩, -⟩ := h
  obtain ⟨c, x, rfl⟩ := List.exists_cons_of_ne_nil hx
  exact ⟨c, rfl, hxs c List.mem_cons_self⟩

/-- The text before a NUL is all there is before it. -/
theorem eq_of_append_nul {w' post' : List Char} (hw : '\x00' ∉ w) (hw' : '\x00' ∉ w')
    (h : w ++ '\x00' :: post = w' ++ '\x00' :: post') : w = w' := by
  rcases List.append_eq_append_iff.mp h with ⟨as, rfl, has⟩ | ⟨as, rfl, has⟩
  · cases as with
    | nil => exact (List.append_nil w).symm
    | cons a as =>
      obtain ⟨rfl, -⟩ := List.cons.inj has
      exact absurd (List.mem_append_right w List.mem_cons_self) hw'
  · cases as with
    | nil => exact List.append_nil w'
    | cons a as =>
      obtain ⟨rfl, -⟩ := List.cons.inj has
      exact absurd (List.mem_append_right w' List.mem_cons_self) hw

end

section

variable {u : CharTables} (g : Greeting u)

theorem Greeting.triple_number : Triple u g.number :=
  ⟨g.x, g.y, g.z, g.x_digits, g.y_digits, g.z_digits, rfl⟩

theorem Greeting.banner_toList :
    g.banner.toList = (g.before ++ '\n' :: g.number) ++ g.tail := by
  unfold Greeting.banner
  rw [String.toList_ofList, List.append_assoc, List.cons_append]

/-- No runs begin before the version. -/
theorem Greeting.notEnded_before {pre s tail : List Char} (hsplit : g.before ++ ['\n'] = pre ++ s)
    (hne : s ≠ []) : ¬ Ended u (s ++ tail) := by
  intro hended
  obtain ⟨c, s, rfl⟩ := List.exists_cons_of_ne_nil hne
  obtain ⟨c', hc', hdigit⟩ := hended.head
  rw [← Option.some.inj hc'] at hdigit
  have hmem : c ∈ g.before ++ ['\n'] := by
    rw [hsplit]
    exact List.mem_append_right pre List.mem_cons_self
  rcases List.mem_append.mp hmem with hbefore | hnewline
  · rw [g.before_digits c hbefore] at hdigit
    cases hdigit
  · rw [List.mem_singleton.mp hnewline, digit_newline] at hdigit
    cases hdigit

/-- The runs of the version are ended when nothing else is in its suffix. -/
theorem Greeting.firstPlace_number (h : All (wordDash u) g.suffix) :
    FirstPlace (Ended u) g.banner.toList (g.number ++ g.tail) := by
  have hbanner : g.banner.toList = (g.before ++ ['\n']) ++ (g.number ++ g.tail) := by
    rw [g.banner_toList]
    simp
  rw [hbanner, firstPlace_append fun _ _ => g.notEnded_before]
  exact .here ⟨g.number, g.suffix, g.rest, rfl, g.triple_number, h⟩

/-- No part of them is ended otherwise. -/
theorem Greeting.notEnded_number (h : ¬ All (wordDash u) g.suffix) {pre s : List Char}
    (hsplit : g.number = pre ++ s) : ¬ Ended u (s ++ g.tail) := by
  rintro ⟨t, w, post, htext, ht, hw⟩
  have hs : All (digitDot u) s := by
    have hnumber := triple_all g.triple_number
    rw [hsplit] at hnumber
    exact (List.forall_mem_append.mp hnumber).2
  have hnul : (s ++ g.suffix) ++ '\x00' :: g.rest = (t ++ w) ++ '\x00' :: post := by
    unfold Greeting.tail at htext
    rw [List.append_assoc, htext, List.append_assoc]
  have heq : s ++ g.suffix = t ++ w := by
    refine eq_of_append_nul ?_ ?_ hnul
    · rw [List.mem_append, not_or]
      exact ⟨notMem_of_all hs digitDot_nul, g.suffix_nul⟩
    · rw [List.mem_append, not_or]
      exact ⟨notMem_of_all (triple_all ht) digitDot_nul, notMem_of_all hw wordDash_nul⟩
  -- the suffix begins with a dash, which is in no run, so it is all in `w`
  rcases List.append_eq_append_iff.mp heq with ⟨as, rfl, has⟩ | ⟨as, -, rfl⟩
  · cases as with
    | nil =>
      rw [List.nil_append] at has
      exact h (has ▸ hw)
    | cons a as =>
      have hdash : a = '-' := g.suffix_dash a (by rw [has]; rfl)
      have hmem : a ∈ s ++ a :: as := List.mem_append_right s List.mem_cons_self
      have hdigits := triple_all ht a hmem
      rw [hdash, digitDot_dash] at hdigits
      cases hdigits
  · exact h (List.forall_mem_append.mp hw).2

/-- No runs are ended before the suffix otherwise. -/
theorem Greeting.notEnded_head (h : ¬ All (wordDash u) g.suffix) (pre s : List Char)
    (hsplit : g.before ++ '\n' :: g.number = pre ++ s) (hne : s ≠ []) :
    ¬ Ended u (s ++ g.tail) := by
  have hsplit' : (g.before ++ ['\n']) ++ g.number = pre ++ s := by
    rw [← hsplit]
    simp
  rcases List.append_eq_append_iff.mp hsplit' with ⟨as, -, hnumber⟩ | ⟨as, hbefore, rfl⟩
  · exact g.notEnded_number h hnumber
  · cases as with
    | nil =>
      have hnumber : g.number = [] ++ ([] ++ g.number) := rfl
      exact g.notEnded_number h hnumber
    | cons a as =>
      rw [List.append_assoc]
      exact g.notEnded_before hbefore (List.cons_ne_nil a as)

theorem Greeting.nowhere_iff : Nowhere (Ended u) g.banner.toList ↔
    ¬ All (wordDash u) g.suffix ∧ Nowhere (Ended u) g.tail := by
  by_cases hall : All (wordDash u) g.suffix
  · refine iff_of_false (fun h => ?_) fun h => h.1 hall
    refine h (g.number ++ g.tail) ⟨g.before ++ ['\n'], ?_⟩ (g.firstPlace_number hall).holds
    rw [g.banner_toList]
    simp
  · rw [and_iff_right hall, g.banner_toList]
    exact nowhere_append (g.notEnded_head hall)

theorem Greeting.readsTriple_iff : ReadsTriple u g.banner.toList g.number ↔
    All (wordDash u) g.suffix ∨ ReadsTriple u g.tail g.number := by
  by_cases hall : All (wordDash u) g.suffix
  · refine iff_of_true ⟨g.suffix, g.rest, g.firstPlace_number hall, g.triple_number, hall, ?_⟩
      (.inl hall)
    intro c hc
    rw [g.suffix_dash c hc]
    exact digit_dash
  · rw [or_iff_right hall, g.banner_toList]
    unfold ReadsTriple
    simp only [firstPlace_append (g.notEnded_head hall)]

/-- **MySQL greetings** report the server exactly when they are read as meant. -/
theorem reportsServer_iff (port : ℤ) (h : ∀ e ∈ mySQL.earlier, e.search u g.banner = none) :
    ReportsServer g port ↔ ReadsAsMeant g := by
  have hmaria : (∃ guess, identifyFromBanner u g.banner port = some guess ∧
      guess.product = some "MariaDB" ∧
        ∃ run, MariaRun u g.version run ∧ guess.version = some (String.ofList run)) ↔
      Nowhere (Ended u) g.banner.toList ∧
        ∃ run, ReadsMaria u g.banner.toList run ∧ MariaRun u g.version run := by
    have hearlier : (∀ e ∈ mariaDB.earlier, e.search u g.banner = none) ↔
        Nowhere (Ended u) g.banner.toList := by
      have hlist : mariaDB.earlier = mySQL.earlier ++ [mySQL] := rfl
      rw [hlist, List.forall_mem_append, and_iff_right h, List.forall_mem_singleton]
      exact search_mySQL_eq_none
    constructor
    · rintro ⟨guess, hguess, hproduct, run, hrun, hversion⟩
      obtain ⟨hnone, hfound⟩ := (guess_iff mariaDB port).mp ⟨guess, hguess, hproduct, hversion⟩
      exact ⟨hearlier.mp hnone, run, search_mariaDB_iff.mp hfound, hrun⟩
    · rintro ⟨hnone, run, hreads, hrun⟩
      obtain ⟨guess, hguess, hproduct, hversion⟩ := (guess_iff mariaDB port).mpr
        ⟨hearlier.mpr hnone, search_mariaDB_iff.mpr hreads⟩
      exact ⟨guess, hguess, hproduct, run, hrun, hversion⟩
  have hmysql : (∃ guess, identifyFromBanner u g.banner port = some guess ∧
      guess.product = some "MySQL" ∧ guess.version = some (String.ofList g.number)) ↔
      ReadsTriple u g.banner.toList g.number := by
    refine (guess_iff mySQL port).trans ((and_iff_right h).trans ?_)
    exact search_mySQL_iff
  unfold ReportsServer
  by_cases hnames : g.NamesMaria
  · simp only [hnames, forall_const, not_true_eq_false, false_imp_iff, and_true, hmaria,
      g.nowhere_iff]
    constructor
    · rintro ⟨⟨hsuffix, hnone⟩, hreads⟩
      exact ⟨fun _ => ⟨hsuffix, hnone, hreads⟩, fun hno => absurd hnames hno⟩
    · intro hmeant
      obtain ⟨hsuffix, hnone, hreads⟩ := hmeant.maria hnames
      exact ⟨⟨hsuffix, hnone⟩, hreads⟩
  · simp only [hnames, forall_const, not_false_eq_true, false_imp_iff, true_and, hmysql,
      g.readsTriple_iff]
    constructor
    · intro hreads
      exact ⟨fun hyes => absurd hyes hnames, fun _ => hreads⟩
    · exact fun hmeant => hmeant.mysql hnames

end

/-! ### A server from a distribution -/

/-- The greeting of a server that was built for Ubuntu 22.04. -/
def ubuntuGreeting : Greeting asciiTables where
  before := ['J', '\x00', '\x00', '\x00']
  x := ['8']
  y := ['0']
  z := ['3', '5']
  suffix := "-0ubuntu0.22.04.1".toList
  rest := ['\x08']
  before_digits := by
    simp only [List.forall_mem_cons]
    exact ⟨by decide, by decide, by decide, by decide, List.forall_mem_nil _⟩
  x_digits := ⟨by decide, by decide⟩
  y_digits := ⟨by decide, by decide⟩
  z_digits := ⟨by decide, by decide⟩
  suffix_dash c hc := by
    have hdash : "-0ubuntu0.22.04.1".toList.head? = some '-' := by decide
    exact (Option.some.inj (hdash.symm.trans hc)).symm
  suffix_nul := by decide

theorem earlier_ubuntuGreeting :
    ∀ e ∈ mySQL.earlier, e.search asciiTables ubuntuGreeting.banner = none := by
  decide +kernel

theorem reportsServer_ubuntuGreeting :
    ReportsServer ubuntuGreeting 3306 ↔ ReadsAsMeant ubuntuGreeting :=
  reportsServer_iff ubuntuGreeting 3306 earlier_ubuntuGreeting

/-- The version of the distribution is reported for that of the server. -/
theorem not_reportsServer : ¬ ∀ (u : CharTables) (g : Greeting u) (port : ℤ),
    (∀ e ∈ mySQL.earlier, e.search u g.banner = none) → ReportsServer g port := by
  intro h
  obtain ⟨guess, hguess, hmaria, hmysql⟩ :=
    h asciiTables ubuntuGreeting 3306 earlier_ubuntuGreeting
  have hfound : identifyFromBanner asciiTables ubuntuGreeting.banner 3306 =
      some ⟨"mysql", some "MySQL", some "22.04.1", .high⟩ := by
    decide +kernel
  rw [hfound] at hguess
  obtain rfl := Option.some.inj hguess
  by_cases hnames : ubuntuGreeting.NamesMaria
  · exact absurd (hmaria hnames).1 (by decide)
  · exact absurd (hmysql hnames).2 (by decide)

end ScanLedger
