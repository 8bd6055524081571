/-
# Fingerprints

`app/modules/fingerprints.py`: the table of banner patterns, the first of which
that is found in a banner names the service, and the `Server` header.

Key definitions: `bannerPattern`, `identifyFromBanner`, `identifyFromHttpServerHeader`,
`fingerprint`.
Key theorems: `matches_dottedTriple`, `identifyFromBanner_eq_some`,
`identifyFromBanner_eq_none`, `assured_identify`.
-/
import ScanLedger.Characters
import ScanLedger.ServiceDetect

namespace ScanLedger

open Regex

structure BannerPattern where
  service : String
  product : String
  pattern : Pattern Char

/-- The entries of `BANNER_PATTERNS`. -/
inductive BannerEntry where
  | openSSH
  | dropbear
  | vsftpd
  | proFTPD
  | fileZillaServer
  | postfixMta
  | exim
  | dovecot
  | mySQL
  | mariaDB
  | redis
  | postgreSQL
  | telnet
  deriving DecidableEq, Repr

open BannerEntry

/-- Their order in the table. -/
def bannerEntries : List BannerEntry :=
  [openSSH, dropbear, vsftpd, proFTPD, fileZillaServer, postfixMta, exim, dovecot, mySQL, mariaDB,
    redis, postgreSQL, telnet]

/-- The entries that are tried before one. -/
def BannerEntry.earlier (entry : BannerEntry) : List BannerEntry :=
  bannerEntries.takeWhile (· ≠ entry)

/-! ### The patterns -/

/-- `[_-]`. -/
def separatorChar (c : Char) : Bool := c == '_' || c == '-'

section

variable (u : CharTables)

/-- `([\d.]+)`. -/
def numberGroup : Pattern Char := .group (.plus (.one (digitDot u)))

/-- `name\s+([\d.]+)`. -/
def spacedVersion (name : String) : Pattern Char :=
  seqs [ignoreCase name, .plus (.one isSpace), numberGroup u]

/-- `\bname\b(?:\s+([\d.]+))?`. -/
def namedVersion (name : String) : Pattern Char :=
  seqs [.look (atBoundary u), ignoreCase name, .look (atBoundary u),
    .opt (seqs [.plus (.one isSpace), numberGroup u])]

/-- `[\d]+\.[\d]+\.[\d]+`. -/
def dottedTriple : Pattern Char :=
  seqs [.plus (.one (digit u)), .one (· == '.'), .plus (.one (digit u)), .one (· == '.'),
    .plus (.one (digit u))]

/-- `[\w-]`. -/
def wordDash (c : Char) : Bool := word u c || c == '-'

/-- `BANNER_PATTERNS`. -/
def bannerPattern : BannerEntry → BannerPattern
  | openSSH => ⟨"ssh", "OpenSSH", seqs [ignoreCase "SSH-", .plus (.one (digitDot u)),
      ignoreCase "-OpenSSH", .one separatorChar, .group (.plus (.one (wordDot u)))]⟩
  | dropbear => ⟨"ssh", "Dropbear", seqs [ignoreCase "SSH-", .plus (.one (digitDot u)),
      ignoreCase "-dropbear", .opt (.one separatorChar), .group (.star (.one (wordDot u)))]⟩
  | vsftpd => ⟨"ftp", "vsftpd", spacedVersion u "vsftpd"⟩
  | proFTPD => ⟨"ftp", "ProFTPD", spacedVersion u "ProFTPD"⟩
  | fileZillaServer => ⟨"ftp", "FileZilla Server", spacedVersion u "FileZilla Server"⟩
  | postfixMta => ⟨"smtp", "Postfix", namedVersion u "Postfix"⟩
  | exim => ⟨"smtp", "Exim", .seq (.look (atBoundary u)) (spacedVersion u "Exim")⟩
  | dovecot => ⟨"imap", "Dovecot", namedVersion u "Dovecot"⟩
  | mySQL => ⟨"mysql", "MySQL", seqs [.group (dottedTriple u), .star (.one (wordDash u)),
      .one (· == '\x00')]⟩
  | mariaDB => ⟨"mysql", "MariaDB", seqs [numberGroup u, ignoreCase "-MariaDB"]⟩
  | redis => ⟨"redis", "Redis", seqs [ignoreCase "redis_version:", numberGroup u]⟩
  | postgreSQL => ⟨"postgresql", "PostgreSQL", spacedVersion u "PostgreSQL"⟩
  | telnet => ⟨"telnet", "Telnet", seqs [.look fun before _ => before.isNone, .one (· == 'ÿ'),
      .one fun c => 'û' ≤ c ∧ c ≤ 'þ']⟩

/-- `HTTP_SERVER_HEADER`. -/
def httpServerHeader : Pattern Char :=
  seqs [.look fun before _ => before.all (· == '\n'), ignoreCase "server:", .star (.one isSpace),
    .group (.plus (.one (· != '\n'))), .look fun _ next => next.all (· == '\n')]

/-- `[A-Za-z]`. -/
def asciiLetter (c : Char) : Bool := c.isAlpha

/-- `[\w.+-]`. -/
def productChar (c : Char) : Bool := word u c || c == '.' || c == '+' || c == '-'

/-- `HTTP_PRODUCT_VERSION`. -/
def httpProductVersion : Pattern Char :=
  seqs [.look fun before _ => before.isNone,
    .group (seqs [.one asciiLetter, .star (.one (productChar u))]),
    .opt (seqs [.one (· == '/'), .group (.plus (.one (wordDot u)))])]

/-! ### What they identify -/

/-- The first group, when it is there and not empty. -/
def statedVersion (m : Found Char) : Option (List Char) :=
  m.groups.head?.filter fun version => !version.isEmpty

/-- The guess of an entry whose pattern was found. -/
def BannerEntry.guess (entry : BannerEntry) (m : Found Char) : ServiceGuess :=
  ⟨(bannerPattern u entry).service, some (bannerPattern u entry).product,
    (statedVersion m).map String.ofList, if (statedVersion m).isSome then .high else .medium⟩

def BannerEntry.search (entry : BannerEntry) (banner : String) : Option (Found Char) :=
  Regex.search (bannerPattern u entry).pattern banner.toList

def identifyFromBanner (banner : String) (_port : ℤ) : Option ServiceGuess :=
  bannerEntries.findSome? fun entry => (entry.search u banner).map (entry.guess u)

def identifyFromHttpServerHeader (headerValue : String) : ServiceGuess :=
  match matchStart (httpProductVersion u) (strip headerValue).toList with
  | none => ⟨"http", none, none, .low⟩
  | some m => ⟨"http", (m.groups[0]?).map String.ofList, (m.groups[1]?).map String.ofList,
      if (m.groups[1]?).isSome then .high else .medium⟩

/-- What `_identify` makes of a banner: the table first, and then the header. -/
def fingerprint (banner : String) (port : ℤ) : Option ServiceGuess :=
  match identifyFromBanner u banner port with
  | some guess => some guess
  | none => do
    let header ← Regex.search httpServerHeader banner.toList
    let value ← header.groups.head?
    return identifyFromHttpServerHeader u (String.ofList value)

end

/-! ### Reading the patterns -/

section

variable {u : CharTables} {before : Option Char} {s w : List Char} {m : Found Char} {name : String}
  {rs : List (Pattern Char)}

theorem mem_run_ignoreCase : m ∈ run (seqs (ignoreCase name :: rs)) before s ↔
    ∃ w t, s = w ++ t ∧ Reads name w ∧ ∃ m' ∈ run (seqs rs) (after before w) t,
      m = ⟨w ++ m'.text, m'.rest, m'.groups⟩ :=
  matches_literal.mem_run_seqs

/-- A group of digits and dots is the version. -/
theorem mem_run_numberGroup :
    m ∈ run (seqs (numberGroup u :: rs)) before s ↔
      ∃ version t, s = version ++ t ∧ (version ≠ [] ∧ All (digitDot u) version) ∧
        ∃ m' ∈ run (seqs rs) (after before version) t,
          m = ⟨version ++ m'.text, m'.rest, version :: m'.groups⟩ :=
  matches_plus.mem_run_group

theorem statedVersion_eq {version : List Char} {groups : List (List Char)} (hne : version ≠ [])
    (h : m.groups = version :: groups) : statedVersion m = some version := by
  unfold statedVersion
  rw [h]
  simp [hne]

theorem first_ignoreCase {t : List Char} (hreads : Reads name w)
    (h : first (seqs rs) (after before w) t = some m) :
    first (seqs (ignoreCase name :: rs)) before (w ++ t) =
      some ⟨w ++ m.text, m.rest, m.groups⟩ := first_seqs (first_literal hreads) h

/-- Three runs of digits with dots between. -/
def Triple (u : CharTables) (w : List Char) : Prop :=
  ∃ x y z : List Char, (x ≠ [] ∧ All (digit u) x) ∧ (y ≠ [] ∧ All (digit u) y) ∧
    (z ≠ [] ∧ All (digit u) z) ∧ w = x ++ '.' :: (y ++ '.' :: z)

theorem triple_ne_nil (h : Triple u w) : w ≠ [] := by
  obtain ⟨x, y, z, ⟨hx, -⟩, -, -, rfl⟩ := h
  exact List.append_ne_nil_of_left_ne_nil hx _

theorem triple_all (h : Triple u w) : All (digitDot u) w := by
  obtain ⟨x, y, z, ⟨-, hx⟩, ⟨-, hy⟩, ⟨-, hz⟩, rfl⟩ := h
  have hdigits : ∀ {w : List Char}, All (digit u) w → All (digitDot u) w := fun hw c hc =>
    digitDot_of_digit (hw c hc)
  unfold All
  rw [List.forall_mem_append, List.forall_mem_cons, List.forall_mem_append, List.forall_mem_cons]
  exact ⟨hdigits hx, digitDot_dot, hdigits hy, digitDot_dot, hdigits hz⟩

theorem matches_dottedTriple : Matches (dottedTriple u) (Triple u) := by
  have hdot : Matches (.one (· == '.')) (fun w => ∃ a, (a == '.') = true ∧ w = [a]) := matches_one
  have hrun : Matches (.plus (.one (digit u))) fun w => w ≠ [] ∧ All (digit u) w := matches_plus
  have hall := hrun.seqs (hdot.seqs (hrun.seqs (hdot.seqs (hrun.seqs matches_nil))))
  intro prev as m
  refine (hall prev as m).trans (and_congr_right fun _ => and_congr_left fun _ => ?_)
  constructor
  · rintro ⟨x, w₁, htext, hx, w₂, w₃, rfl, ⟨c, hc, rfl⟩, y, w₄, rfl, hy, w₅, w₆, rfl,
      ⟨c', hc', rfl⟩, z, w₇, rfl, hz, rfl⟩
    rw [beq_iff_eq.mp hc, beq_iff_eq.mp hc'] at htext
    exact ⟨x, y, z, hx, hy, hz, by simpa using htext⟩
  · rintro ⟨x, y, z, hx, hy, hz, htext⟩
    refine ⟨x, '.' :: (y ++ '.' :: z), htext, hx, ['.'], y ++ '.' :: z, rfl, ⟨'.', rfl, rfl⟩, y,
      '.' :: z, rfl, hy, ['.'], z, rfl, ⟨'.', rfl, rfl⟩, z, [], (List.append_nil z).symm, hz, rfl⟩

end

/-! ### The first entry -/

section

variable (u : CharTables)

/-- The entry is the first whose pattern is found, and so it is found. -/
structure BannerEntry.Identifies (entry : BannerEntry) (banner : String) (m : Found Char) :
    Prop where
  earlier : ∀ e ∈ entry.earlier, e.search u banner = none
  found : entry.search u banner = some m

variable {u} {banner : String} {port : ℤ}

theorem search_eq_some {entry : BannerEntry} {m : Found Char} :
    entry.search u banner = some m ↔
      ∃ place, find (bannerPattern u entry).pattern none banner.toList = some place ∧
        first (bannerPattern u entry).pattern place.1 place.2 = some m := Option.bind_eq_some_iff

theorem mem_bannerEntries (entry : BannerEntry) : entry ∈ bannerEntries := by
  cases entry <;> decide

/-- A product has one entry. -/
theorem product_injective {entry entry' : BannerEntry}
    (h : (bannerPattern u entry).product = (bannerPattern u entry').product) : entry = entry' := by
  have hascii : ∀ e : BannerEntry,
      (bannerPattern u e).product = (bannerPattern asciiTables e).product := by
    intro e
    cases e <;> rfl
  have hdistinct : ∀ e ∈ bannerEntries, ∀ e' ∈ bannerEntries,
      (bannerPattern asciiTables e).product = (bannerPattern asciiTables e').product → e = e' := by
    decide +kernel
  rw [hascii, hascii] at h
  exact hdistinct entry (mem_bannerEntries entry) entry' (mem_bannerEntries entry') h

theorem earlier_of_split {entry : BannerEntry} {before behind : List BannerEntry}
    (h : bannerEntries = before ++ entry :: behind) : entry.earlier = before := by
  have hnodup : bannerEntries.Nodup := by decide
  rw [h] at hnodup
  have hne : ∀ e ∈ before, e ≠ entry := by
    rintro e he rfl
    exact (List.nodup_append.mp hnodup).2.2 e he e List.mem_cons_self rfl
  unfold BannerEntry.earlier
  rw [h, List.takeWhile_append_of_pos (by simpa using hne), List.takeWhile_cons_of_neg (by simp),
    List.append_nil]

theorem exists_split (entry : BannerEntry) :
    ∃ behind, bannerEntries = entry.earlier ++ entry :: behind := by
  obtain ⟨before, behind, hsplit⟩ := List.append_of_mem (mem_bannerEntries entry)
  rw [earlier_of_split hsplit]
  exact ⟨behind, hsplit⟩

/-- **The guess** is that of the first entry whose pattern is found. -/
theorem identifyFromBanner_eq_some {guess : ServiceGuess} :
    identifyFromBanner u banner port = some guess ↔
      ∃ (entry : BannerEntry) (m : Found Char), entry.Identifies u banner m ∧
        entry.guess u m = guess := by
  unfold identifyFromBanner
  rw [List.findSome?_eq_some_iff]
  constructor
  · rintro ⟨before, entry, behind, hsplit, hguess, hbefore⟩
    obtain ⟨m, hfound, hm⟩ := Option.map_eq_some_iff.mp hguess
    refine ⟨entry, m, ⟨?_, hfound⟩, hm⟩
    rw [earlier_of_split hsplit]
    exact fun e he => Option.map_eq_none_iff.mp (hbefore e he)
  · rintro ⟨entry, m, h, rfl⟩
    obtain ⟨behind, hsplit⟩ := exists_split entry
    refine ⟨entry.earlier, entry, behind, hsplit, ?_, ?_⟩
    · rw [h.found]
      rfl
    · exact fun e he => Option.map_eq_none_iff.mpr (h.earlier e he)

theorem identifyFromBanner_eq_none : identifyFromBanner u banner port = none ↔
    ∀ entry : BannerEntry, entry.search u banner = none := by
  unfold identifyFromBanner
  rw [List.findSome?_eq_none_iff]
  exact ⟨fun h entry => Option.map_eq_none_iff.mp (h entry (mem_bannerEntries entry)),
    fun h entry _ => Option.map_eq_none_iff.mpr (h entry)⟩

/-- Two entries are not both the first. -/
theorem BannerEntry.Identifies.unique {entry entry' : BannerEntry} {m m' : Found Char}
    (h : entry.Identifies u banner m) (h' : entry'.Identifies u banner m') :
    entry = entry' ∧ m = m' := by
  have hsame : some (entry, m) = some (entry', m') := by
    have hfirst : ∀ {e : BannerEntry} {m : Found Char}, e.Identifies u banner m →
        bannerEntries.findSome? (fun e => (e.search u banner).map fun m => (e, m)) =
          some (e, m) := by
      intro e m he
      obtain ⟨behind, hsplit⟩ := exists_split e
      rw [List.findSome?_eq_some_iff]
      refine ⟨e.earlier, e, behind, hsplit, ?_, ?_⟩
      · rw [he.found]
        rfl
      · exact fun e' he' => Option.map_eq_none_iff.mpr (he.earlier e' he')
    rw [← hfirst h, ← hfirst h']
  exact Prod.mk.inj (Option.some.inj hsame)

end

/-! ### Confidence -/

/-- The confidence is high exactly when a version is stated. -/
def ServiceGuess.Assured (guess : ServiceGuess) : Prop :=
  guess.confidence = .high ↔ guess.version.isSome

section

variable {u : CharTables} {services : Services} {target : ValidatedTarget} {guess : ServiceGuess}
  {banner headerValue : String} {port : ℤ}

theorem assured_guess (entry : BannerEntry) (m : Found Char) : (entry.guess u m).Assured := by
  unfold BannerEntry.guess ServiceGuess.Assured
  cases statedVersion m with
  | none => simp
  | some version => simp

theorem assured_header : (identifyFromHttpServerHeader u headerValue).Assured := by
  unfold identifyFromHttpServerHeader ServiceGuess.Assured
  cases matchStart (httpProductVersion u) (strip headerValue).toList with
  | none => simp
  | some m => cases m.groups[1]? <;> simp

theorem assured_fingerprint (h : fingerprint u banner port = some guess) : guess.Assured := by
  unfold fingerprint at h
  cases hguess : identifyFromBanner u banner port with
  | some found =>
    rw [hguess] at h
    obtain ⟨entry, m, -, rfl⟩ := identifyFromBanner_eq_some.mp hguess
    rw [← Option.some.inj h]
    exact assured_guess entry m
  | none =>
    rw [hguess] at h
    obtain ⟨header, -, h⟩ := Option.bind_eq_some_iff.mp h
    obtain ⟨value, -, h⟩ := Option.bind_eq_some_iff.mp h
    rw [← Option.some.inj h]
    exact assured_header

theorem assured_serviceNameForPort (h : serviceNameForPort port = some guess) :
    guess.Assured := by
  obtain ⟨name, -, rfl⟩ := Option.map_eq_some_iff.mp h
  simp [ServiceGuess.Assured]

/-- The guess of the module, from a banner, a header or a port. -/
theorem assured_guessService (hfingerprint : services.fingerprint = fingerprint u) :
    (guessService services banner port).Assured := by
  unfold guessService
  split
  · rename_i guess hguess
    rw [hfingerprint] at hguess
    split_ifs at hguess
    exact assured_fingerprint hguess
  · cases hname : serviceNameForPort port with
    | none => simp [ServiceGuess.Assured]
    | some guess => exact assured_serviceNameForPort hname

/-- **A service that is found** has high confidence exactly when it states a
version. -/
theorem assured_identify {clock : String → Option ℤ → ℚ} {factory : String × ℤ} {f : Finding}
    (hfingerprint : services.fingerprint = fingerprint u)
    (h : identify services target clock factory = .ok (some f)) :
    ∃ guess banner port, guess.Assured ∧
      f = serviceFinding clock factory.1 port guess banner (decide (port ∈ tlsPorts)) := by
  unfold identify at h
  split at h
  · cases h
  · rename_i a port _
    split at h
    · cases h
    · cases h
    · rename_i banner _
      cases banner with
      | error x => cases h
      | ok banner =>
        refine ⟨guessService services banner port, banner, port,
          assured_guessService hfingerprint, ?_⟩
        exact (Option.some.inj (Except.ok.inj h)).symm

end

end ScanLedger
