/-
# The fields of a CPE name

A product and a version come from a banner, so the target chooses them. What a
name is made of stays the table's and the numbers a version begins with: the
vendor and the product are those of a curated entry, and a version is cut down
to the longest part at its start that is digits with single dots in between
(`normalizeVersion_eq_some_iff`). None of them has a colon, so a name always
comes apart into its 13 fields.

Key definitions: `Numeric`, `LongestNumeric`, `CpeFields`.
Key theorems: `first_versionPattern`, `normalizeVersion_eq_some_iff`,
`normalizeVersion_idem`, `cpe_fields`.
-/
import ScanLedger.Cpe

namespace ScanLedger

open Regex

/-- Runs, each with a dot before it. -/
def dotted (runs : List (List Char)) : List Char := (runs.map ('.' :: ·)).flatten

section

variable (u : CharTables)

/-- Digits, with single dots between runs of them. -/
def Numeric (w : List Char) : Prop :=
  ∃ x runs, w = x ++ dotted runs ∧ Digits u x ∧ ∀ r ∈ runs, Digits u r

/-- The longest part at the start of a text that is numeric. -/
structure LongestNumeric (s w : List Char) : Prop where
  isPrefix : w <+: s
  numeric : Numeric u w
  longest : ∀ w', w' <+: s → Numeric u w' → w'.length ≤ w.length

variable {u} {s w rest : List Char} {runs : List (List Char)} {c : Char} {text core : String}
  {version : Option String}

theorem numeric_digit (hc : digit u c = true) : Numeric u [c] := by
  refine ⟨[c], [], rfl, ⟨List.cons_ne_nil c [], ?_⟩, nofun⟩
  simpa [All] using hc

theorem Digits.snoc (h : Digits u w) (hc : digit u c = true) : Digits u (w ++ [c]) :=
  ⟨List.append_ne_nil_of_left_ne_nil h.1 _,
    List.forall_mem_append.mpr ⟨h.2, List.forall_mem_singleton.mpr hc⟩⟩

/-- One more digit. -/
theorem Numeric.snoc (h : Numeric u w) (hc : digit u c = true) : Numeric u (w ++ [c]) := by
  obtain ⟨x, runs, rfl, hx, hruns⟩ := h
  rcases List.eq_nil_or_concat' runs with rfl | ⟨runs, r, rfl⟩
  · refine ⟨x ++ [c], [], ?_, hx.snoc hc, nofun⟩
    simp [dotted]
  · obtain ⟨hruns, hr⟩ := List.forall_mem_append.mp hruns
    refine ⟨x, runs ++ [r ++ [c]], ?_, hx, List.forall_mem_append.mpr ⟨hruns, ?_⟩⟩
    · simp [dotted]
    · exact List.forall_mem_singleton.mpr ((hr r List.mem_cons_self).snoc hc)

/-- A dot, and one more digit. -/
theorem Numeric.dot (h : Numeric u w) (hc : digit u c = true) : Numeric u (w ++ ['.', c]) := by
  obtain ⟨x, runs, rfl, hx, hruns⟩ := h
  refine ⟨x, runs ++ [[c]], ?_, hx, List.forall_mem_append.mpr ⟨hruns, ?_⟩⟩
  · simp [dotted]
  · refine List.forall_mem_singleton.mpr ⟨List.cons_ne_nil c [], ?_⟩
    simpa [All] using hc

theorem Numeric.ne_nil (h : Numeric u w) : w ≠ [] := by
  obtain ⟨x, runs, rfl, hx, -⟩ := h
  exact List.append_ne_nil_of_left_ne_nil hx.1 _

theorem Numeric.all (h : Numeric u w) : All (digitDot u) w := by
  obtain ⟨x, runs, rfl, hx, hruns⟩ := h
  refine List.forall_mem_append.mpr ⟨fun c hc => digitDot_of_digit (hx.2 c hc), fun c hc => ?_⟩
  obtain ⟨block, hblock, hc⟩ := List.mem_flatten.mp hc
  obtain ⟨r, hr, rfl⟩ := List.mem_map.mp hblock
  rcases List.mem_cons.mp hc with rfl | hc
  · exact digitDot_dot
  · exact digitDot_of_digit ((hruns r hr).2 c hc)

/-! ### The longest part -/

theorem exists_longest (hc : c ∈ s.head?) (hdigit : digit u c = true) :
    ∃ w, LongestNumeric u s w := by
  classical
  obtain ⟨t, rfl⟩ := List.head?_eq_some_iff.mp hc
  have hone : Numeric u ((c :: t).take 1) := numeric_digit hdigit
  refine ⟨(c :: t).take (Nat.findGreatest (fun k => Numeric u ((c :: t).take k)) (c :: t).length),
    List.take_prefix _ _, ?_, fun w' hw' hnumeric => ?_⟩
  · exact Nat.findGreatest_spec (P := fun k => Numeric u ((c :: t).take k))
      (Nat.succ_le_of_lt (Nat.zero_lt_succ _)) hone
  · have htake : (c :: t).take w'.length = w' := (List.prefix_iff_eq_take.mp hw').symm
    have hle := Nat.le_findGreatest (P := fun k => Numeric u ((c :: t).take k)) hw'.length_le
      (by rwa [htake])
    rw [List.length_take]
    exact le_min hle hw'.length_le

/-- The longest part is unique. -/
theorem LongestNumeric.unique {w' : List Char} (h : LongestNumeric u s w)
    (h' : LongestNumeric u s w') : w = w' := by
  have hle : w.length ≤ w'.length := h'.longest w h.isPrefix h.numeric
  have hge : w'.length ≤ w.length := h.longest w' h'.isPrefix h'.numeric
  have hprefix : w <+: w' := List.prefix_of_prefix_length_le h.isPrefix h'.isPrefix hle
  exact hprefix.eq_of_length (Nat.le_antisymm hle hge)

/-- No digit follows, nor a dot and a digit. -/
structure EndsRuns (u : CharTables) (rest : List Char) : Prop where
  digit : Stops (digit u) rest
  dot : ∀ c t, rest = '.' :: c :: t → ScanLedger.digit u c = false

theorem LongestNumeric.endsRuns (h : LongestNumeric u (w ++ rest) w) : EndsRuns u rest := by
  constructor
  · intro c hc
    obtain ⟨t, rfl⟩ := List.head?_eq_some_iff.mp hc
    by_contra hdigit
    have hsnoc : Numeric u (w ++ [c]) := h.numeric.snoc (eq_true_of_ne_false hdigit)
    have hle := h.longest (w ++ [c]) ⟨t, by simp⟩ hsnoc
    rw [List.length_append] at hle
    exact absurd hle (Nat.not_succ_le_self _)
  · rintro c t rfl
    by_contra hdigit
    have hdot : Numeric u (w ++ ['.', c]) := h.numeric.dot (eq_true_of_ne_false hdigit)
    have hle := h.longest (w ++ ['.', c]) ⟨t, by simp⟩ hdot
    rw [List.length_append] at hle
    exact absurd hle (Nat.not_le_of_lt (Nat.lt_add_of_pos_right (Nat.zero_lt_succ 1)))

/-! ### What the pattern takes -/

/-- A dot and the run after it. -/
def dotRun (u : CharTables) : Pattern Char := seqs [.one (· == '.'), .plus (.one (digit u))]

theorem run_dotRun (h : EndsRuns u rest) (prev : Option Char) : run (dotRun u) prev rest = [] := by
  by_contra hne
  obtain ⟨m, hm⟩ := List.exists_mem_of_ne_nil _ hne
  obtain ⟨w, t, rfl, ⟨c, hc, rfl⟩, m₁, h₁, -⟩ := matches_one.mem_run_seqs.mp hm
  obtain ⟨r, t, rfl, ⟨hr, hall⟩, -⟩ := matches_plus.mem_run_seqs.mp h₁
  obtain ⟨d, r, rfl⟩ := List.exists_cons_of_ne_nil hr
  have hdigit : digit u d = true := hall d List.mem_cons_self
  rw [h.dot d (r ++ t) (by rw [beq_iff_eq.mp hc]; rfl)] at hdigit
  cases hdigit

/-- The runs fit: each ends where the next dot is, or the text goes on otherwise. -/
theorem fits_dotted (h : EndsRuns u rest) : ∀ {runs : List (List Char)},
    (∀ r ∈ runs, Digits u r) → Fits (dotRun u) (runs.map ('.' :: ·)) rest ∧
      Stops (digit u) (dotted runs ++ rest)
  | [], _ => ⟨fun prev => run_dotRun h prev, h.digit⟩
  | r :: runs, hruns => by
    obtain ⟨⟨hr, hall⟩, hruns⟩ := List.forall_mem_cons.mp hruns
    obtain ⟨hfits, hstops⟩ := fits_dotted h hruns
    refine ⟨⟨List.cons_ne_nil _ _, fun prev => ?_, hfits⟩, fun c hc => ?_⟩
    · have hfirst : first (dotRun u) prev ('.' :: (r ++ (dotted runs ++ rest))) = some _ :=
        first_seqs (first_one rfl) (first_seqs (first_plus hr hall hstops) first_seqs_nil)
      refine hfirst.trans ?_
      simp [Found.andThen, dotted]
    · rw [← Option.some.inj hc]
      exact digit_dot

/-- **The pattern takes the longest part** that is numeric. -/
theorem first_versionPattern (h : LongestNumeric u s w) :
    ∃ rest, s = w ++ rest ∧ first (versionPattern u) none s = some ⟨w, rest, []⟩ := by
  obtain ⟨rest, rfl⟩ := h.isPrefix
  obtain ⟨x, runs, rfl, ⟨hx, hall⟩, hruns⟩ := h.numeric
  obtain ⟨hfits, hstops⟩ := fits_dotted h.endsRuns hruns
  refine ⟨rest, rfl, ?_⟩
  rw [List.append_assoc]
  have hfirst : first (versionPattern u) none (x ++ (dotted runs ++ rest)) = some _ :=
    first_seqs (first_look rfl) (first_seqs (first_plus hx hall hstops)
      (first_seqs (first_star_blocks hfits) first_seqs_nil))
  refine hfirst.trans ?_
  simp [Found.andThen, dotted]

/-- **A version is cut down** to the longest part at its start that is numeric. -/
theorem normalizeVersion_eq_some_iff : normalizeVersion u version = some core ↔
    ∃ text, version = some text ∧ LongestNumeric u (strip text).toList core.toList := by
  have hmatch : ∀ {s : List Char} {m : Found Char},
      matchStart (versionPattern u) s = some m → LongestNumeric u s m.text := by
    intro s m hm
    obtain ⟨c, hc, hdigit⟩ := run_versionPattern.mp (List.ne_nil_of_mem (mem_of_first hm))
    obtain ⟨w, hlongest⟩ := exists_longest hc hdigit
    obtain ⟨rest, -, hfirst⟩ := first_versionPattern hlongest
    rw [Option.some.inj (hm.symm.trans hfirst)]
    exact hlongest
  unfold normalizeVersion
  constructor
  · intro h
    obtain ⟨text, htext, h⟩ := Option.bind_eq_some_iff.mp h
    obtain ⟨m, hm, rfl⟩ := Option.map_eq_some_iff.mp h
    refine ⟨text, eq_some_of_truthy htext, ?_⟩
    rw [String.toList_ofList]
    exact hmatch hm
  · rintro ⟨text, rfl, hlongest⟩
    obtain ⟨rest, hsplit, hfirst⟩ := first_versionPattern hlongest
    have hfull : text.isEmpty = false := by
      rw [← Bool.not_eq_true]
      intro hempty
      have htext : text = "" := by simpa using hempty
      have hstrip : (strip text).toList = [] := by
        rw [htext]
        decide +kernel
      rw [hstrip] at hsplit
      exact hlongest.numeric.ne_nil (List.append_eq_nil_iff.mp hsplit.symm).1
    have hm : matchStart (versionPattern u) (strip text).toList = some ⟨core.toList, rest, []⟩ :=
      hfirst
    unfold truthy
    simp only [hfull, Bool.false_eq_true, if_false, Option.bind_some, hm, Option.map_some]
    rw [String.ofList_toList]

/-- What is cut down already stays as it is. -/
theorem normalizeVersion_idem :
    normalizeVersion u (normalizeVersion u version) = normalizeVersion u version := by
  cases hcore : normalizeVersion u version with
  | none => rfl
  | some core =>
    obtain ⟨text, -, hlongest⟩ := normalizeVersion_eq_some_iff.mp hcore
    have hspace : ∀ c ∈ core.toList, isSpace c = false := fun c hc =>
      isSpace_of_digitDot (hlongest.numeric.all c hc)
    have hstrip : strip core = core :=
      strip_eq_self (fun c hc => hspace c (List.mem_of_mem_head? hc))
        fun c hc => hspace c (List.mem_reverse.mp (List.mem_of_mem_head? hc))
    refine normalizeVersion_eq_some_iff.mpr ⟨core, rfl, ?_, hlongest.numeric, fun w' hw' _ => ?_⟩
    · exact hstrip.symm ▸ List.prefix_rfl
    · rw [hstrip] at hw'
      exact hw'.length_le

/-! ### The fields -/

/-- The version as it is looked up: the longest numeric part at the start of the
stripped text, or the wildcard where there is none. -/
def VersionField (u : CharTables) (version : Option String) (field : String) : Prop :=
  (∃ text, version = some text ∧ LongestNumeric u (strip text).toList field.toList) ∨
    field = "*" ∧ ∀ text w, version = some text → w <+: (strip text).toList → ¬ Numeric u w

/-- The name splits into 13 fields: those of the curated entry of the product, and
the version. -/
def CpeFields (u : CharTables) (product version : Option String) (name : String) : Prop :=
  ∃ text identity field, product = some text ∧
    curatedCpeMap.lookup (String.ofList (u.lower (strip text).toList)) = some identity ∧
    VersionField u version field ∧
    name.toList.splitOn ':' = ["cpe", "2.3", "a", identity.vendor, identity.product, field,
      "*", "*", "*", "*", "*", "*", "*"].map String.toList

theorem versionField_normalizeVersion :
    VersionField u version ((truthy (normalizeVersion u version)).getD "*") := by
  cases hcore : normalizeVersion u version with
  | none =>
    refine .inr ⟨rfl, fun text w htext hw hnumeric => ?_⟩
    obtain ⟨c, cs, hcons⟩ := List.exists_cons_of_ne_nil hnumeric.ne_nil
    obtain ⟨x, runs, hsplit, ⟨hx, hall⟩, -⟩ := hnumeric
    obtain ⟨d, x, rfl⟩ := List.exists_cons_of_ne_nil hx
    obtain ⟨rest, hrest⟩ := hw
    have hhead : d ∈ (strip text).toList.head? := by
      rw [← hrest, hsplit]
      rfl
    obtain ⟨w', hlongest⟩ := exists_longest hhead (hall d List.mem_cons_self)
    have hsome : normalizeVersion u version = some (String.ofList w') := by
      rw [normalizeVersion_eq_some_iff, String.toList_ofList]
      exact ⟨text, htext, hlongest⟩
    rw [hcore] at hsome
    cases hsome
  | some core =>
    obtain ⟨text, htext, hlongest⟩ := normalizeVersion_eq_some_iff.mp hcore
    have hfull : core.isEmpty = false := by
      have hne : core ≠ "" := by
        rintro rfl
        exact hlongest.numeric.ne_nil rfl
      simpa using hne
    refine .inl ⟨text, htext, ?_⟩
    unfold truthy
    simpa [hfull] using hlongest

/-- No field has a colon. -/
theorem VersionField.colon {field : String} (h : VersionField u version field) :
    ':' ∉ field.toList := by
  rcases h with ⟨text, -, hlongest⟩ | ⟨rfl, -⟩
  · intro hcolon
    have hdigit := hlongest.numeric.all ':' hcolon
    unfold digitDot at hdigit
    rw [digit_of_not_ascii_digit (by decide) (by decide)] at hdigit
    cases hdigit
  · decide

theorem colon_curated {entry : String × CpeIdentity} (h : entry ∈ curatedCpeMap) :
    ':' ∉ entry.2.vendor.toList ∧ ':' ∉ entry.2.product.toList := by
  have hall : ∀ entry ∈ curatedCpeMap,
      ':' ∉ entry.2.vendor.toList ∧ ':' ∉ entry.2.product.toList := by
    decide +kernel
  exact hall entry h

/-- The name is its fields with colons in between. -/
theorem toList_buildCpeName (identity : CpeIdentity) (version : Option String) :
    (buildCpeName identity version).toList = [':'].intercalate (["cpe", "2.3", "a", identity.vendor,
      identity.product, (truthy version).getD "*", "*", "*", "*", "*", "*", "*", "*"].map
        String.toList) := by
  unfold buildCpeName
  simp [List.intercalate]

/-- **The fields of a name** are those of the table and the version's numbers, and
cutting a version down twice is the same as once. -/
theorem cpe_fields (u : CharTables) (product version : Option String) :
    (∀ name, cpeFor u product version = some name → CpeFields u product version name) ∧
      normalizeVersion u (normalizeVersion u version) = normalizeVersion u version := by
  refine ⟨fun name hname => ?_, normalizeVersion_idem⟩
  obtain ⟨identity, hlookup, rfl⟩ := Option.map_eq_some_iff.mp hname
  obtain ⟨text, htext, hidentity⟩ := Option.bind_eq_some_iff.mp hlookup
  have hproduct : product = some text := eq_some_of_truthy htext
  have hversion : VersionField u version ((truthy (normalizeVersion u version)).getD "*") :=
    versionField_normalizeVersion
  refine ⟨text, identity, _, hproduct, hidentity, hversion, ?_⟩
  obtain ⟨l₁, l₂, hsplit, -⟩ := List.lookup_eq_some_iff.mp hidentity
  have hentry : ∃ key, (key, identity) ∈ curatedCpeMap := by
    rw [hsplit]
    exact ⟨_, List.mem_append_right _ List.mem_cons_self⟩
  obtain ⟨key, hkey⟩ := hentry
  obtain ⟨hvendor, hname⟩ := colon_curated hkey
  rw [toList_buildCpeName, List.splitOn_intercalate]
  · simp only [List.forall_mem_map, List.forall_mem_cons]
    exact ⟨by decide, by decide, by decide, hvendor, hname, hversion.colon, by decide, by decide,
      by decide, by decide, by decide, by decide, by decide, List.forall_mem_nil _⟩
  · exact List.cons_ne_nil _ _

end

end ScanLedger
