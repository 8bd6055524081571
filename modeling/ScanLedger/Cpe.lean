/-
# CPE names

`app/modules/cpe.py`: a product is looked up in a curated table, and a version is
cut down to its numbers. A version without any becomes the wildcard.

Key definitions: `normalizeVersion`, `lookup`, `buildCpeName`, `cpeFor`.
Key theorems: `lookup_curated`, `normalizeVersion_isSome_iff`, `concrete_iff`.
-/
import ScanLedger.Fingerprints

namespace ScanLedger

open Regex

structure CpeIdentity where
  vendor : String
  product : String
  deriving DecidableEq, Repr

/-- `CURATED_CPE_MAP`. -/
def curatedCpeMap : List (String × CpeIdentity) :=
  [("openssh", ⟨"openbsd", "openssh"⟩),
    ("dropbear", ⟨"dropbear_ssh_project", "dropbear_ssh"⟩),
    ("apache", ⟨"apache", "http_server"⟩),
    ("apache httpd", ⟨"apache", "http_server"⟩),
    ("httpd", ⟨"apache", "http_server"⟩),
    ("nginx", ⟨"f5", "nginx"⟩),
    ("lighttpd", ⟨"lighttpd", "lighttpd"⟩),
    ("iis", ⟨"microsoft", "internet_information_services"⟩),
    ("microsoft-iis", ⟨"microsoft", "internet_information_services"⟩),
    ("vsftpd", ⟨"vsftpd_project", "vsftpd"⟩),
    ("proftpd", ⟨"proftpd", "proftpd"⟩),
    ("filezilla server", ⟨"filezilla-project", "filezilla_server"⟩),
    ("pure-ftpd", ⟨"pureftpd", "pure-ftpd"⟩),
    ("mysql", ⟨"oracle", "mysql"⟩),
    ("mariadb", ⟨"mariadb", "mariadb"⟩),
    ("postgresql", ⟨"postgresql", "postgresql"⟩),
    ("redis", ⟨"redis", "redis"⟩),
    ("mongodb", ⟨"mongodb", "mongodb"⟩),
    ("elasticsearch", ⟨"elastic", "elasticsearch"⟩),
    ("postfix", ⟨"postfix", "postfix"⟩),
    ("exim", ⟨"exim", "exim"⟩),
    ("dovecot", ⟨"dovecot", "dovecot"⟩),
    ("samba", ⟨"samba", "samba"⟩),
    ("openssl", ⟨"openssl", "openssl"⟩),
    ("tomcat", ⟨"apache", "tomcat"⟩),
    ("apache tomcat", ⟨"apache", "tomcat"⟩),
    ("jenkins", ⟨"jenkins", "jenkins"⟩),
    ("grafana", ⟨"grafana", "grafana"⟩),
    ("jetty", ⟨"eclipse", "jetty"⟩),
    ("node.js", ⟨"nodejs", "node.js"⟩),
    ("werkzeug", ⟨"palletsprojects", "werkzeug"⟩),
    ("gunicorn", ⟨"gunicorn", "gunicorn"⟩),
    ("squid", ⟨"squid-cache", "squid"⟩),
    ("haproxy", ⟨"haproxy", "haproxy"⟩),
    ("openvpn", ⟨"openvpn", "openvpn"⟩),
    ("vnc", ⟨"realvnc", "vnc"⟩),
    ("memcached", ⟨"memcached", "memcached"⟩)]

section

variable (u : CharTables)

/-- `VERSION_PATTERN`. -/
def versionPattern : Pattern Char :=
  seqs [.look fun before _ => before.isNone, .plus (.one (digit u)),
    .star (seqs [.one (· == '.'), .plus (.one (digit u))])]

def normalizeVersion (version : Option String) : Option String :=
  (truthy version).bind fun version =>
    (matchStart (versionPattern u) (strip version).toList).map fun m => String.ofList m.text

def lookup (product : Option String) : Option CpeIdentity :=
  (truthy product).bind fun product =>
    curatedCpeMap.lookup (String.ofList (u.lower (strip product).toList))

def buildCpeName (identity : CpeIdentity) (version : Option String) : String :=
  "cpe:2.3:a:" ++ identity.vendor ++ ":" ++ identity.product ++ ":" ++
    (truthy version).getD "*" ++ ":*:*:*:*:*:*:*"

def cpeFor (product version : Option String) : Option String :=
  (lookup u product).map fun identity => buildCpeName identity (normalizeVersion u version)

end

/-! ### What is looked up -/

section

variable {u : CharTables} {c : Char} {cs : List Char} {text : String}

theorem eq_some_of_truthy {o : Option String} (h : truthy o = some text) : o = some text := by
  unfold truthy at h
  split at h
  · split_ifs at h
    exact h
  · cases h

theorem dropWhile_isSpace (h : Stops isSpace cs) : cs.dropWhile isSpace = cs := by
  cases cs with
  | nil => rfl
  | cons c cs =>
    have hc : isSpace c = false := h c rfl
    exact List.dropWhile_cons_of_neg (by simp [hc])

/-- A text with no space at its ends is stripped already. -/
theorem strip_eq_self (hfirst : Stops isSpace text.toList)
    (hlast : Stops isSpace text.toList.reverse) : strip text = text := by
  unfold strip
  rw [dropWhile_isSpace hfirst, dropWhile_isSpace hlast, List.reverse_reverse,
    String.ofList_toList]

/-- A key of the table is a product as it is looked up. -/
theorem lookup_curated {entry : String × CpeIdentity} (h : entry ∈ curatedCpeMap) :
    lookup u (some entry.1) = some entry.2 := by
  have hplain : ∀ entry ∈ curatedCpeMap, entry.1.isEmpty = false ∧
      entry.1.toList.head?.any isSpace = false ∧
      entry.1.toList.reverse.head?.any isSpace = false ∧
      entry.1.toList.all (fun c => decide (c.toNat < 128)) = true ∧
      entry.1.toList.map Char.toLower = entry.1.toList ∧
      curatedCpeMap.lookup entry.1 = some entry.2 := by
    decide +kernel
  obtain ⟨hempty, hfirst, hlast, hascii, hlower, hfound⟩ := hplain entry h
  have hstops : ∀ {cs : List Char}, cs.head?.any isSpace = false → Stops isSpace cs := by
    intro cs hany c hc
    rw [Option.mem_def.mp hc] at hany
    exact hany
  have hall : ∀ c ∈ entry.1.toList, c.toNat < 128 := by simpa using hascii
  unfold lookup truthy
  simp only [hempty, Bool.false_eq_true, if_false, Option.bind_some]
  rw [strip_eq_self (hstops hfirst) (hstops hlast), u.lower_ascii _ hall, hlower,
    String.ofList_toList]
  exact hfound

/-! ### What counts as a version -/

/-- The pattern is found exactly in a text that begins with a digit. -/
theorem run_versionPattern : run (versionPattern u) none cs ≠ [] ↔
    ∃ c ∈ cs.head?, digit u c = true := by
  constructor
  · intro hne
    obtain ⟨m, hm⟩ := List.exists_mem_of_ne_nil _ hne
    obtain ⟨m₁, h₁, m₂, h₂, -⟩ := mem_run_seqs.mp hm
    obtain ⟨-, rfl⟩ := mem_run_look.mp h₁
    obtain ⟨m₃, h₃, -⟩ := mem_run_seqs.mp h₂
    obtain ⟨hsplit, hdigits, hall, -⟩ := mem_run_plus.mp h₃
    obtain ⟨c, digits, hcons⟩ := List.exists_cons_of_ne_nil hdigits
    dsimp only at hsplit
    rw [hcons] at hsplit hall
    rw [hsplit]
    exact ⟨c, rfl, hall c List.mem_cons_self⟩
  · rintro ⟨c, hc, hdigit⟩
    obtain ⟨cs, rfl⟩ := List.head?_eq_some_iff.mp hc
    have hplus : (⟨[c], cs, []⟩ : Found Char) ∈ run (.plus (.one (digit u))) none (c :: cs) :=
      mem_run_plus.mpr ⟨rfl, List.cons_ne_nil c [], by simpa [All] using hdigit, rfl⟩
    have hmatch : (⟨[c], cs, []⟩ : Found Char) ∈ run (versionPattern u) none (c :: cs) :=
      mem_run_seqs.mpr ⟨_, mem_run_look.mpr ⟨rfl, rfl⟩, _, mem_run_seqs.mpr ⟨_, hplus, _,
        mem_run_seqs.mpr ⟨_, nil_mem_run_star, _, mem_run_seqs_nil.mpr rfl, rfl⟩, rfl⟩, rfl⟩
    exact List.ne_nil_of_mem hmatch

/-- A version is cut down to something exactly when it begins with a digit. -/
theorem normalizeVersion_isSome_iff (hspace : ∀ c ∈ text.toList, isSpace c = false) :
    (normalizeVersion u (some text)).isSome ↔ ∃ c ∈ text.toList.head?, digit u c = true := by
  by_cases hempty : text.isEmpty = true
  · have htext : text.toList = [] := by simpa using hempty
    rw [htext]
    unfold normalizeVersion truthy
    simp [hempty]
  · have hstrip : strip text = text :=
      strip_eq_self (fun c hc => hspace c (List.mem_of_mem_head? hc))
        fun c hc => hspace c (List.mem_reverse.mp (List.mem_of_mem_head? hc))
    rw [← run_versionPattern]
    unfold normalizeVersion truthy matchStart
    simp only [hempty, Bool.false_eq_true, if_false, Option.bind_some]
    rw [Option.isSome_map, hstrip, Option.isSome_iff_ne_none]
    exact first_eq_none.not

/-- The version has numbers, and the name of each product in the table carries
them. -/
def Concrete (u : CharTables) (version : String) : Prop :=
  ∃ core, normalizeVersion u (some version) = some core ∧ core ≠ "" ∧ core ≠ "*" ∧
    ∀ entry ∈ curatedCpeMap, cpeFor u (some entry.1) (some version) =
      some ("cpe:2.3:a:" ++ entry.2.vendor ++ ":" ++ entry.2.product ++ ":" ++ core ++
        ":*:*:*:*:*:*:*")

theorem head_normalizeVersion {core : String} (h : normalizeVersion u (some text) = some core) :
    ∃ c ∈ core.toList.head?, digit u c = true := by
  unfold normalizeVersion at h
  obtain ⟨version, -, hmatch⟩ := Option.bind_eq_some_iff.mp h
  obtain ⟨m, hm, rfl⟩ := Option.map_eq_some_iff.mp hmatch
  obtain ⟨m₁, h₁, m₂, h₂, rfl⟩ := mem_run_seqs.mp (mem_of_first hm)
  obtain ⟨-, rfl⟩ := mem_run_look.mp h₁
  obtain ⟨m₃, h₃, m₄, -, rfl⟩ := mem_run_seqs.mp h₂
  obtain ⟨-, hdigits, hall, -⟩ := mem_run_plus.mp h₃
  obtain ⟨c, digits, hcons⟩ := List.exists_cons_of_ne_nil hdigits
  refine ⟨c, ?_, hall c (by rw [hcons]; exact List.mem_cons_self)⟩
  rw [String.toList_ofList]
  simp [Found.andThen, hcons]

/-- **A concrete version** is one that begins with a digit. -/
theorem concrete_iff (hspace : ∀ c ∈ text.toList, isSpace c = false) :
    Concrete u text ↔ ∃ c ∈ text.toList.head?, digit u c = true := by
  rw [← normalizeVersion_isSome_iff hspace]
  constructor
  · rintro ⟨core, hcore, -⟩
    rw [hcore]
    rfl
  · intro h
    obtain ⟨core, hcore⟩ := Option.isSome_iff_exists.mp h
    obtain ⟨c, hc, hdigit⟩ := head_normalizeVersion hcore
    have hne : core ≠ "" := by
      rintro rfl
      cases hc
    have hstar : core ≠ "*" := by
      rintro rfl
      have hc' : '*' = c := Option.some.inj hc
      rw [← hc', digit_of_not_ascii_digit (by decide) (by decide)] at hdigit
      cases hdigit
    refine ⟨core, hcore, hne, hstar, ?_⟩
    intro entry hentry
    unfold cpeFor
    rw [lookup_curated hentry, hcore]
    unfold buildCpeName truthy
    have hempty : core.isEmpty = false := by simpa using hne
    simp [hempty]

end

example : cpeFor asciiTables (some " OpenSSH") (some "8.9p1") =
    some "cpe:2.3:a:openbsd:openssh:8.9:*:*:*:*:*:*:*" := by decide +kernel

end ScanLedger
