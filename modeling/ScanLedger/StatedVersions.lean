/-
# Stated versions

A version that a banner or a `Server` header states is reported with high
confidence, and is looked up by the numbers it begins with. The patterns take
for a version whatever letters, digits and dots follow the product, so a stated
version need not have any: then the name that is looked up has the wildcard in
its place, and stands for every version of the product.

Where the version of an entry would begin is read off the text from the first
place where its pattern is found (`versionField`).

Key definitions: `Stated`, `BannerEntry.versionField`, `NumberedBanner`, `NumberedHeader`.
Key theorems: `versionIs_statedVersion`, `stated_banner_iff`, `stated_header_iff`,
`stated_iff`.
-/
import ScanLedger.Cpe

namespace ScanLedger

open Regex BannerEntry

section

variable (u : CharTables)

/-- A stated version is concrete. -/
def Stated (guess : Option ServiceGuess) : Prop :=
  ∀ g version, guess = some g → g.version = some version → Concrete u version

/-! ### Where a version begins -/

/-- After the name and spaces. -/
def spacedField (name : String) (s : List Char) : List Char :=
  (s.drop name.length).dropWhile isSpace

/-- After the name and at least one space. -/
def namedField (name : String) (s : List Char) : List Char :=
  let t := s.drop name.length
  if t.head?.any isSpace then t.dropWhile isSpace else []

/-- After the version of the protocol and the name. -/
def sshField (name : String) (s : List Char) : List Char :=
  ((s.drop "SSH-".length).dropWhile (digitDot u)).drop name.length

/-- The text from where the version of an entry would begin, of the text from
the entry on. -/
def BannerEntry.versionField (s : List Char) : BannerEntry → List Char
  | openSSH => (sshField u "-OpenSSH" s).drop 1
  | dropbear =>
    let t := sshField u "-dropbear" s
    if t.head?.any separatorChar then t.drop 1 else t
  | vsftpd => spacedField "vsftpd" s
  | proFTPD => spacedField "ProFTPD" s
  | fileZillaServer => spacedField "FileZilla Server" s
  | postfixMta => namedField "Postfix" s
  | exim => spacedField "Exim" s
  | dovecot => namedField "Dovecot" s
  | mySQL => s
  | mariaDB => s
  | redis => s.drop "redis_version:".length
  | postgreSQL => spacedField "PostgreSQL" s
  | telnet => []

/-- The characters of a version. -/
def BannerEntry.versionChar : BannerEntry → Char → Bool
  | openSSH | dropbear => wordDot u
  | _ => digitDot u

/-- A version that begins in the field begins with a digit. -/
def NumberFirst (p : Char → Bool) (field : List Char) : Prop :=
  ∀ c ∈ field.head?, p c = true → digit u c = true

/-- The first entry that is found in the banner has a digit where its version
begins. -/
def NumberedBanner (banner : String) : Prop :=
  ∀ (entry : BannerEntry) (before : Option Char) (s : List Char),
    (∀ e ∈ entry.earlier, e.search u banner = none) →
    find (bannerPattern u entry).pattern none banner.toList = some (before, s) →
    NumberFirst u (entry.versionChar u) (entry.versionField u s)

/-- After the product of a header and a slash. -/
def headerField (s : List Char) : List Char :=
  if s.head?.any asciiLetter then
    let t := (s.drop 1).dropWhile (productChar u)
    if t.head? = some '/' then t.drop 1 else []
  else []

def NumberedHeader (headerValue : String) : Prop :=
  NumberFirst u (wordDot u) (headerField u (strip headerValue).toList)

end

/-! ### What the patterns take for a version -/

/-- The version that was read from the field, if one begins there. -/
def VersionIs (p : Char → Bool) (field : List Char) : Option (List Char) → Prop
  | some version => version ≠ [] ∧ All p version ∧ ∃ rest, field = version ++ rest
  | none => Stops p field

section

variable {u : CharTables} {p : Char → Bool} {before : Option Char} {s w : List Char}
  {m : Found Char} {name banner headerValue : String} {c : Char}

/-- Spaces before a version are dropped, and no more. -/
theorem dropWhile_spaces {spaces version : List Char} (hspaces : All isSpace spaces)
    (hne : version ≠ []) (hall : All (digitDot u) version) :
    (spaces ++ version ++ s).dropWhile isSpace = version ++ s := by
  obtain ⟨c, digits, rfl⟩ := List.exists_cons_of_ne_nil hne
  have hc : isSpace c = false := isSpace_of_digitDot (hall c List.mem_cons_self)
  rw [List.append_assoc, List.dropWhile_append_of_pos hspaces]
  exact List.dropWhile_cons_of_neg (by simp [hc])

/-- Spaces, and the version. -/
theorem mem_run_spaces : m ∈ run (seqs [.plus (.one isSpace), numberGroup u]) before s ↔
    ∃ spaces version rest, s = spaces ++ version ++ rest ∧ spaces ≠ [] ∧ All isSpace spaces ∧
      version ≠ [] ∧ All (digitDot u) version ∧ m = ⟨spaces ++ version, rest, [version]⟩ := by
  rw [matches_plus.mem_run_seqs]
  constructor
  · rintro ⟨spaces, t, rfl, ⟨hspaces, hall⟩, m', hm', rfl⟩
    obtain ⟨version, rest, rfl, ⟨hne, hdigits⟩, m'', hm'', rfl⟩ := mem_run_numberGroup.mp hm'
    rw [mem_run_seqs_nil.mp hm'']
    refine ⟨spaces, version, rest, ?_, hspaces, hall, hne, hdigits, ?_⟩
    · rw [List.append_assoc]
    · rw [List.append_nil]
  · rintro ⟨spaces, version, rest, rfl, hspaces, hall, hne, hdigits, rfl⟩
    refine ⟨spaces, version ++ rest, List.append_assoc _ _ _, ⟨hspaces, hall⟩, _,
      mem_run_numberGroup.mpr ⟨version, rest, rfl, ⟨hne, hdigits⟩, _,
        mem_run_seqs_nil.mpr rfl, rfl⟩, ?_⟩
    rw [List.append_nil]

theorem versionIs_spaced (h : m ∈ run (spacedVersion u name) before s) :
    VersionIs (digitDot u) (spacedField name s) (statedVersion m) := by
  unfold spacedVersion at h
  obtain ⟨w, t, rfl, hreads, m', hm', rfl⟩ := mem_run_ignoreCase.mp h
  obtain ⟨spaces, version, rest, rfl, -, hspaces, hne, hall, rfl⟩ := mem_run_spaces.mp hm'
  rw [statedVersion_eq hne rfl]
  refine ⟨hne, hall, rest, ?_⟩
  unfold spacedField
  rw [drop_reads hreads, dropWhile_spaces hspaces hne hall]

/-- The version of a name that may stand alone: where the spaces end. -/
theorem versionIs_named (h : first (namedVersion u name) before s = some m) :
    VersionIs (digitDot u) (namedField name s) (statedVersion m) := by
  unfold namedVersion at h
  obtain ⟨m₁, h₁, m₂, h₂, -⟩ := mem_run_seqs.mp (mem_of_first h)
  obtain ⟨hbefore, rfl⟩ := mem_run_look.mp h₁
  obtain ⟨w, t, rfl, hreads, m₃, h₃, -⟩ := mem_run_ignoreCase.mp h₂
  obtain ⟨m₄, h₄, -⟩ := mem_run_seqs.mp h₃
  obtain ⟨hafter, -⟩ := mem_run_look.mp h₄
  -- the groups are those of the optional part, read from `t`
  have hgroups : ∀ {m' : Found Char}, first (.opt (seqs [.plus (.one isSpace), numberGroup u]))
      (after before w) t = some m' → m.groups = m'.groups := by
    intro m' hopt
    have hlook : first (seqs [.look (atBoundary u), .opt (seqs [.plus (.one isSpace),
        numberGroup u])]) (after before w) t = some (Found.andThen ⟨[], t, []⟩
          (m'.andThen ⟨[], m'.rest, []⟩)) :=
      first_seqs (first_look hafter) (first_seqs hopt first_seqs_nil)
    have hall := first_seqs (first_look hbefore) (first_ignoreCase hreads hlook)
    rw [Option.some.inj (h.symm.trans hall)]
    simp [Found.andThen]
  have hfield : namedField name (w ++ t) =
      if t.head?.any isSpace then t.dropWhile isSpace else [] := by
    unfold namedField
    rw [drop_reads hreads]
  rw [hfield]
  by_cases hinner : run (seqs [.plus (.one isSpace), numberGroup u]) (after before w) t = []
  · have hnone : statedVersion m = none := by
      unfold statedVersion
      rw [hgroups (first_opt_nil hinner)]
      rfl
    rw [hnone]
    intro c hc
    by_contra hdigit
    have hdigit' : digitDot u c = true := eq_true_of_ne_false hdigit
    split_ifs at hc with hspace
    · obtain ⟨rest, hrest⟩ := List.head?_eq_some_iff.mp hc
      have hspaces : t.takeWhile isSpace ≠ [] := by
        cases t with
        | nil => cases hspace
        | cons a t =>
          have ha : isSpace a = true := by simpa using hspace
          simp [ha]
      refine List.ne_nil_of_mem (mem_run_spaces.mpr ⟨t.takeWhile isSpace, [c], rest, ?_, hspaces,
        fun a ha => List.mem_takeWhile_imp ha, List.cons_ne_nil c [], ?_, rfl⟩) hinner
      · have hsplit : t.takeWhile isSpace ++ t.dropWhile isSpace = t :=
          List.takeWhile_append_dropWhile
        rw [List.append_assoc, List.singleton_append, ← hrest, hsplit]
      · simpa [All] using hdigit'
    · cases hc
  · obtain ⟨m', hm'⟩ := Option.ne_none_iff_exists'.mp (first_eq_none.not.mpr hinner)
    obtain ⟨spaces, version, rest, rfl, hspaces, hall, hne, hdigits, rfl⟩ :=
      mem_run_spaces.mp (mem_of_first hm')
    have hstated : statedVersion m = some version := statedVersion_eq hne (hgroups (first_opt hm'))
    have hspace : (spaces ++ version ++ rest).head?.any isSpace = true := by
      obtain ⟨a, spaces, rfl⟩ := List.exists_cons_of_ne_nil hspaces
      exact hall a List.mem_cons_self
    rw [hstated, if_pos hspace]
    exact ⟨hne, hdigits, rest, dropWhile_spaces hall hne hdigits⟩

/-! ### The versions of SSH servers -/

/-- The protocol, its version and the name of the server. -/
theorem sshField_eq {ds v : List Char} (hssh : Reads "SSH-" w) (hds : All (digitDot u) ds)
    (hv : Reads name v) (hdash : v.head? = some '-') :
    sshField u name (w ++ (ds ++ (v ++ s))) = s := by
  obtain ⟨v', rfl⟩ := List.head?_eq_some_iff.mp hdash
  have hno : digitDot u '-' = false := digitDot_dash
  unfold sshField
  rw [drop_reads hssh, List.dropWhile_append_of_pos hds, List.cons_append,
    List.dropWhile_cons_of_neg (by simp [hno]), ← List.cons_append, drop_reads hv]

theorem versionIs_openSSH (h : m ∈ run (bannerPattern u openSSH).pattern before s) :
    VersionIs (wordDot u) (openSSH.versionField u s) (statedVersion m) := by
  obtain ⟨w, t, rfl, hssh, m₁, h₁, rfl⟩ := mem_run_ignoreCase.mp h
  obtain ⟨ds, t, rfl, ⟨-, hds⟩, m₂, h₂, rfl⟩ := matches_plus.mem_run_seqs.mp h₁
  obtain ⟨v, t, rfl, hname, m₃, h₃, rfl⟩ := mem_run_ignoreCase.mp h₂
  obtain ⟨w₄, t, rfl, ⟨c, -, rfl⟩, m₄, h₄, rfl⟩ := matches_one.mem_run_seqs.mp h₃
  obtain ⟨version, t, rfl, ⟨hne, hall⟩, m₅, -, rfl⟩ := matches_plus.mem_run_group.mp h₄
  rw [statedVersion_eq hne rfl]
  refine ⟨hne, hall, t, ?_⟩
  unfold BannerEntry.versionField
  rw [sshField_eq hssh hds hname (head_reads hname)]
  rfl

/-- A group that takes all it can states the version that the text begins with. -/
theorem versionIs_takeWhile {p : Char → Bool} {field : List Char}
    (hm : m.groups = [field.takeWhile p]) : VersionIs p field (statedVersion m) := by
  have hsplit : field.takeWhile p ++ field.dropWhile p = field := List.takeWhile_append_dropWhile
  unfold statedVersion
  rw [hm]
  by_cases hempty : field.takeWhile p = []
  · rw [hempty]
    intro c hc
    rw [hempty, List.nil_append] at hsplit
    have hnot := List.head?_dropWhile_not p field
    rw [hsplit, hc] at hnot
    simpa using hnot
  · have hsome : [field.takeWhile p].head?.filter (fun v => !v.isEmpty) =
        some (field.takeWhile p) := by
      simp [hempty]
    rw [hsome]
    exact ⟨hempty, fun c hc => List.mem_takeWhile_imp hc, _, hsplit.symm⟩

/-- The separator is taken when there is one, and then all that a version can have. -/
theorem first_separated {t field : List Char}
    (hfrom : (if t.head?.any separatorChar then t.drop 1 else t) = field) :
    ∃ m', first (seqs [.opt (.one separatorChar), .group (.star (.one (wordDot u)))]) before t =
      some m' ∧ m'.groups = [field.takeWhile (wordDot u)] := by
  by_cases hseparator : t.head?.any separatorChar = true
  · obtain ⟨c, t', rfl⟩ : ∃ c t', t = c :: t' := by
      cases t with
      | nil => cases hseparator
      | cons c t' => exact ⟨c, t', rfl⟩
    rw [if_pos hseparator] at hfrom
    subst hfrom
    exact ⟨_, first_seqs (first_opt (first_one hseparator))
      (first_seqs (first_group first_star_takeWhile) first_seqs_nil), rfl⟩
  · have hrun : run (.one separatorChar) before t = [] := by
      cases t with
      | nil => rfl
      | cons c t =>
        have hc : separatorChar c = false := by simpa using hseparator
        rw [run, hc]
        rfl
    rw [if_neg hseparator] at hfrom
    subst hfrom
    exact ⟨_, first_seqs (first_opt_nil hrun)
      (first_seqs (first_group first_star_takeWhile) first_seqs_nil), rfl⟩

theorem versionIs_dropbear (h : first (bannerPattern u dropbear).pattern before s = some m) :
    VersionIs (wordDot u) (dropbear.versionField u s) (statedVersion m) := by
  obtain ⟨w, t, rfl, hssh, m₁, h₁, -⟩ := mem_run_ignoreCase.mp (mem_of_first h)
  obtain ⟨ds, t, rfl, ⟨hne, hds⟩, m₂, h₂, -⟩ := matches_plus.mem_run_seqs.mp h₁
  obtain ⟨v, t, rfl, hname, m₃, h₃, -⟩ := mem_run_ignoreCase.mp h₂
  have hdash : v.head? = some '-' := head_reads hname
  have hstops : Stops (digitDot u) (v ++ t) := by
    intro c hc
    rw [List.head?_append, hdash] at hc
    rw [← Option.some.inj hc]
    exact digitDot_dash
  have hfield : dropbear.versionField u (w ++ (ds ++ (v ++ t))) =
      if t.head?.any separatorChar then t.drop 1 else t := by
    unfold BannerEntry.versionField
    rw [sshField_eq hssh hds hname hdash]
  rw [hfield]
  generalize hfrom : (if t.head?.any separatorChar then t.drop 1 else t) = field
  obtain ⟨m', hm', hgroups⟩ :=
    @first_separated u (after (after (after before w) ds) v) t field hfrom
  have hall : first (bannerPattern u dropbear).pattern before (w ++ (ds ++ (v ++ t))) = some _ :=
    first_ignoreCase hssh (first_seqs (first_plus hne hds hstops) (first_ignoreCase hname hm'))
  have hm : m.groups = [field.takeWhile (wordDot u)] := by
    rw [← hgroups, Option.some.inj (h.symm.trans hall)]
    rfl
  exact versionIs_takeWhile hm

/-! ### Every entry -/

theorem versionIs_mySQL (h : m ∈ run (bannerPattern u mySQL).pattern before s) :
    VersionIs (digitDot u) s (statedVersion m) := by
  obtain ⟨version, t, rfl, htriple, m', -, rfl⟩ := matches_dottedTriple.mem_run_group.mp h
  have hne : version ≠ [] := triple_ne_nil htriple
  rw [statedVersion_eq hne rfl]
  exact ⟨hne, triple_all htriple, t, rfl⟩

theorem versionIs_mariaDB (h : m ∈ run (bannerPattern u mariaDB).pattern before s) :
    VersionIs (digitDot u) s (statedVersion m) := by
  obtain ⟨version, t, rfl, ⟨hne, hall⟩, m', -, rfl⟩ := mem_run_numberGroup.mp h
  rw [statedVersion_eq hne rfl]
  exact ⟨hne, hall, t, rfl⟩

theorem versionIs_redis (h : m ∈ run (bannerPattern u redis).pattern before s) :
    VersionIs (digitDot u) (redis.versionField u s) (statedVersion m) := by
  obtain ⟨w, t, rfl, hname, m₁, h₁, rfl⟩ := mem_run_ignoreCase.mp h
  obtain ⟨version, t, rfl, ⟨hne, hall⟩, m', -, rfl⟩ := mem_run_numberGroup.mp h₁
  rw [statedVersion_eq hne rfl]
  refine ⟨hne, hall, t, ?_⟩
  unfold BannerEntry.versionField
  rw [drop_reads hname]

theorem versionIs_exim (h : m ∈ run (bannerPattern u exim).pattern before s) :
    VersionIs (digitDot u) (exim.versionField u s) (statedVersion m) := by
  obtain ⟨m₁, h₁, m₂, h₂, rfl⟩ := mem_run_seq.mp h
  obtain ⟨-, rfl⟩ := mem_run_look.mp h₁
  exact versionIs_spaced h₂

theorem versionIs_telnet (h : m ∈ run (bannerPattern u telnet).pattern before s) :
    VersionIs (digitDot u) [] (statedVersion m) := by
  obtain ⟨m₁, h₁, m₂, h₂, rfl⟩ := mem_run_seqs.mp h
  obtain ⟨-, rfl⟩ := mem_run_look.mp h₁
  obtain ⟨w, t, -, -, m₃, h₃, rfl⟩ := matches_one.mem_run_seqs.mp h₂
  obtain ⟨w', t', -, -, m₄, h₄, rfl⟩ := matches_one.mem_run_seqs.mp h₃
  rw [mem_run_seqs_nil.mp h₄]
  exact nofun

/-- **What a pattern takes for a version** is what begins in the field. -/
theorem versionIs_statedVersion (entry : BannerEntry)
    (h : first (bannerPattern u entry).pattern before s = some m) :
    VersionIs (entry.versionChar u) (entry.versionField u s) (statedVersion m) := by
  have hrun := mem_of_first h
  cases entry with
  | openSSH => exact versionIs_openSSH hrun
  | dropbear => exact versionIs_dropbear h
  | vsftpd => exact versionIs_spaced hrun
  | proFTPD => exact versionIs_spaced hrun
  | fileZillaServer => exact versionIs_spaced hrun
  | postfixMta => exact versionIs_named h
  | exim => exact versionIs_exim hrun
  | dovecot => exact versionIs_named h
  | mySQL => exact versionIs_mySQL hrun
  | mariaDB => exact versionIs_mariaDB hrun
  | redis => exact versionIs_redis hrun
  | postgreSQL => exact versionIs_spaced hrun
  | telnet => exact versionIs_telnet hrun

theorem isSpace_of_versionChar {entry : BannerEntry} (h : entry.versionChar u c = true) :
    isSpace c = false := by
  cases entry <;> first | exact isSpace_of_wordDot h | exact isSpace_of_digitDot h

/-! ### Concrete versions -/

/-- A version read from a field is concrete exactly when the field begins with
a digit, if with a version. -/
theorem concrete_iff_numberFirst {field : List Char} {version : Option (List Char)}
    (hspace : ∀ c, p c = true → isSpace c = false) (h : VersionIs p field version) :
    (∀ v ∈ version, Concrete u (String.ofList v)) ↔ NumberFirst u p field := by
  cases version with
  | none =>
    refine iff_of_true nofun fun c hc hp => ?_
    rw [h c hc] at hp
    cases hp
  | some v =>
    obtain ⟨hne, hall, rest, rfl⟩ := h
    obtain ⟨c, v, rfl⟩ := List.exists_cons_of_ne_nil hne
    have hc : p c = true := hall c List.mem_cons_self
    have hversion : Concrete u (String.ofList (c :: v)) ↔ digit u c = true := by
      rw [concrete_iff (by rw [String.toList_ofList]; exact fun a ha => hspace a (hall a ha)),
        String.toList_ofList]
      simp
    constructor
    · intro hconcrete a ha _
      have hac : c = a := Option.some.inj ha
      rw [← hac]
      exact hversion.mp (hconcrete _ rfl)
    · intro hnumber v' hv'
      rw [← Option.some.inj hv']
      exact hversion.mpr (hnumber c rfl hc)

theorem stated_some {g : ServiceGuess} :
    Stated u (some g) ↔ ∀ version, g.version = some version → Concrete u version :=
  ⟨fun h version => h g version rfl, fun h _ version hg => Option.some.inj hg ▸ h version⟩

/-- The version of a guess is a text of the pattern's. -/
theorem concrete_map {version : Option (List Char)} :
    (∀ text, version.map String.ofList = some text → Concrete u text) ↔
      ∀ v ∈ version, Concrete u (String.ofList v) := by
  cases version with
  | none => exact iff_of_true nofun nofun
  | some v => simp

/-- A banner's version is concrete exactly when the first entry that is found
has a digit where its version begins. -/
theorem stated_banner_iff (port : ℤ) :
    Stated u (identifyFromBanner u banner port) ↔ NumberedBanner u banner := by
  have hguess : ∀ {entry : BannerEntry} {m : Found Char} {before : Option Char} {s : List Char},
      first (bannerPattern u entry).pattern before s = some m →
      ((∀ version, (entry.guess u m).version = some version → Concrete u version) ↔
        NumberFirst u (entry.versionChar u) (entry.versionField u s)) := by
    intro entry m before s hm
    rw [← concrete_iff_numberFirst (fun _ => isSpace_of_versionChar)
      (versionIs_statedVersion entry hm)]
    exact concrete_map
  constructor
  · intro h entry before s hearlier hfind
    obtain ⟨_, -, -, hne, -⟩ := find_eq_some.mp hfind
    obtain ⟨m, hm⟩ := Option.ne_none_iff_exists'.mp (first_eq_none.not.mpr hne)
    have hsearch : entry.search u banner = some m := search_eq_some.mpr ⟨_, hfind, hm⟩
    refine (hguess hm).mp fun version hversion => h _ version ?_ hversion
    exact identifyFromBanner_eq_some.mpr ⟨entry, m, ⟨hearlier, hsearch⟩, rfl⟩
  · intro h g version hg hversion
    obtain ⟨entry, m, ⟨hearlier, hsearch⟩, rfl⟩ := identifyFromBanner_eq_some.mp hg
    obtain ⟨⟨before, s⟩, hfind, hm⟩ := search_eq_some.mp hsearch
    exact (hguess hm).mpr (h entry before s hearlier hfind) version hversion

/-! ### The header -/

theorem versionIs_header {t : List Char} (hletter : asciiLetter c = true) :
    ∃ m, matchStart (httpProductVersion u) (c :: t) = some m ∧
      VersionIs (wordDot u) (headerField u (c :: t)) m.groups[1]? := by
  have hfield : headerField u (c :: t) = if (t.dropWhile (productChar u)).head? = some '/' then
      (t.dropWhile (productChar u)).drop 1 else [] := by
    unfold headerField
    simp [hletter]
  rw [hfield]
  have hproduct : first (.group (seqs [.one asciiLetter, .star (.one (productChar u))]))
      none (c :: t) = some ⟨c :: t.takeWhile (productChar u), t.dropWhile (productChar u),
        [c :: t.takeWhile (productChar u)]⟩ := by
    have hname : first (seqs [.one asciiLetter, .star (.one (productChar u))]) none (c :: t) =
        some ⟨c :: t.takeWhile (productChar u), t.dropWhile (productChar u), []⟩ := by
      rw [first_seqs (first_one hletter) (first_seqs first_star_takeWhile first_seqs_nil)]
      simp [Found.andThen]
    exact first_group hname
  generalize t.takeWhile (productChar u) = product at hproduct
  generalize t.dropWhile (productChar u) = rest at hproduct ⊢
  by_cases hinner : run (seqs [.one (· == '/'), .group (.plus (.one (wordDot u)))])
      (after none (c :: product)) rest = []
  · refine ⟨_, first_seqs (first_look rfl) (first_seqs hproduct
      (first_seqs (first_opt_nil hinner) first_seqs_nil)), ?_⟩
    intro a ha
    by_contra hword
    have hword' : wordDot u a = true := eq_true_of_ne_false hword
    split_ifs at ha with hslash
    · obtain ⟨r, rfl⟩ := List.head?_eq_some_iff.mp hslash
      obtain ⟨r', hr⟩ := List.head?_eq_some_iff.mp ha
      rw [List.drop_one, List.tail_cons] at hr
      refine List.ne_nil_of_mem (matches_one.mem_run_seqs.mpr ⟨['/'], r, rfl, ⟨'/', rfl, rfl⟩, _,
        matches_plus.mem_run_group.mpr ⟨[a], r', hr, ⟨List.cons_ne_nil a [], ?_⟩, _,
          mem_run_seqs_nil.mpr rfl, rfl⟩, rfl⟩) hinner
      simpa [All] using hword'
    · cases ha
  · obtain ⟨m', hm'⟩ := Option.ne_none_iff_exists'.mp (first_eq_none.not.mpr hinner)
    refine ⟨_, first_seqs (first_look rfl) (first_seqs hproduct
      (first_seqs (first_opt hm') first_seqs_nil)), ?_⟩
    obtain ⟨w, r, rfl, ⟨a, ha, rfl⟩, m₁, h₁, rfl⟩ := matches_one.mem_run_seqs.mp (mem_of_first hm')
    obtain ⟨version, r, rfl, ⟨hne, hall⟩, m₂, -, rfl⟩ := matches_plus.mem_run_group.mp h₁
    have hslash : (['/'] ++ (version ++ r)).head? = some '/' := rfl
    rw [beq_iff_eq.mp ha, if_pos hslash]
    exact ⟨hne, hall, r, rfl⟩

/-- A header's version is concrete exactly when it begins with a digit. -/
theorem stated_header_iff : Stated u (some (identifyFromHttpServerHeader u headerValue)) ↔
    NumberedHeader u headerValue := by
  rw [stated_some]
  unfold NumberedHeader identifyFromHttpServerHeader
  generalize (strip headerValue).toList = s
  by_cases hletter : s.head?.any asciiLetter = true
  · obtain ⟨c, t, rfl⟩ : ∃ c t, s = c :: t := by
      cases s with
      | nil => cases hletter
      | cons c t => exact ⟨c, t, rfl⟩
    obtain ⟨m, hm, hversion⟩ := versionIs_header (u := u) (t := t) hletter
    rw [hm, ← concrete_iff_numberFirst (fun _ => isSpace_of_wordDot) hversion]
    exact concrete_map
  · have hnone : matchStart (httpProductVersion u) s = none := by
      unfold matchStart
      rw [first_eq_none]
      by_contra hne
      obtain ⟨m, hm⟩ := List.exists_mem_of_ne_nil _ hne
      obtain ⟨m₁, h₁, m₂, h₂, -⟩ := mem_run_seqs.mp hm
      obtain ⟨-, rfl⟩ := mem_run_look.mp h₁
      obtain ⟨m₃, h₃, -⟩ := mem_run_seqs.mp h₂
      obtain ⟨m₄, h₄, -⟩ := mem_run_group.mp h₃
      obtain ⟨w, t, rfl, ⟨c, hc, rfl⟩, -⟩ := matches_one.mem_run_seqs.mp h₄
      exact hletter hc
    have hfield : headerField u s = [] := by
      unfold headerField
      rw [if_neg hletter]
    rw [hnone, hfield]
    exact iff_of_true nofun nofun

/-- **Stated versions.** A stated version yields a versioned name exactly when
a digit stands where it begins. -/
theorem stated_iff (u : CharTables) (banner : String) (port : ℤ) (headerValue : String) :
    Stated u (identifyFromBanner u banner port) ∧
        Stated u (some (identifyFromHttpServerHeader u headerValue)) ↔
      NumberedBanner u banner ∧ NumberedHeader u headerValue :=
  and_congr (stated_banner_iff port) stated_header_iff

end

/-- OpenSSH on Windows names the system first. -/
theorem not_stated : ¬ ∀ (u : CharTables) (banner : String) (port : ℤ) (headerValue : String),
    Stated u (identifyFromBanner u banner port) ∧
      Stated u (some (identifyFromHttpServerHeader u headerValue)) := by
  intro h
  have hguess : identifyFromBanner asciiTables "SSH-2.0-OpenSSH_for_Windows_8.1" 22 =
      some ⟨"ssh", some "OpenSSH", some "for_Windows_8.1", .high⟩ := by
    decide +kernel
  obtain ⟨core, hcore, -⟩ := (h asciiTables "SSH-2.0-OpenSSH_for_Windows_8.1" 22 "").1 _
    "for_Windows_8.1" hguess rfl
  have hnone : normalizeVersion asciiTables (some "for_Windows_8.1") = none := by decide +kernel
  rw [hnone] at hcore
  cases hcore

end ScanLedger
