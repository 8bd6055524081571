/-
# No version is made up

What `_identify` of `app/modules/service_detect.py` says of a service, it has from the
service: the banner that `_read_banner` reads, or the answer to the one request it makes
of a service that offers none. A version that a finding states is part of that text, and
so is the version that a CPE name has from it; a product is that of a table entry that
was found in the text, or part of the text itself. Where the text says nothing the port
gives a name, and the confidence is low (`services_grounded`).

Key definitions: `Answer`, `BannerExchange`, `readBanner`, `BannerServices`, `Grounded`.
Key theorems: `grounded_banner`, `grounded_header`, `grounded_guess`, `services_grounded`.
-/
import ScanLedger.Cpe
import ScanLedger.Telnet

namespace ScanLedger

open Regex

/-! ### The banner -/

/-- `BANNER_BYTES`. -/
def bannerBytes : ℕ := 4096

/-- What a read of a stream comes to. -/
inductive Answer
  /-- The bytes that are there by then, none at the end of the stream. -/
  | bytes (raw : List UInt8)
  /-- A timeout, or another `OSError`. -/
  | failed
  | raised (x : Exn)
  deriving DecidableEq, Repr

/-- What the service offers, and what it answers once it is asked: the request may fail
as the read may. -/
structure BannerExchange where
  offered : Answer
  answered : Answer
  deriving DecidableEq, Repr

/-- The request of `_read_banner`, and the read after it. -/
def askPolitely (e : BannerExchange) : Except Exn String :=
  match e.answered with
  | .bytes raw => .ok (decodeBanner (raw.take bannerBytes))
  | .failed => .ok ""
  | .raised x => .error x

/-- `_read_banner`. -/
def readBanner (e : BannerExchange) : Except Exn String :=
  match e.offered with
  | .bytes raw => if raw.isEmpty then askPolitely e else .ok (decodeBanner (raw.take bannerBytes))
  | .failed => askPolitely e
  | .raised x => .error x

/-- What the guard's `open_stream` comes to. -/
inductive StreamOpened
  | opened (e : BannerExchange)
  /-- A timeout, or another `OSError`. -/
  | failed
  | raised (x : Exn)
  deriving DecidableEq, Repr

/-- What each stream comes to, and whether a cancel was requested before it. -/
structure BannerServices where
  cancelled : String → ℤ → Bool
  openStream : IPAddress → ℤ → StreamOpened

/-- The services as the module sees them. -/
def BannerServices.read (b : BannerServices) (u : CharTables) : Services where
  cancelled := b.cancelled
  stream a port := match b.openStream a port with
    | .opened e => .opened (readBanner e)
    | .failed => .failed
    | .raised x => .raised x
  fingerprint := fingerprint u

/-! ### What is said of a service -/

/-- What is said of the service is in the text it sent. -/
structure Grounded (u : CharTables) (banner : String) (guess : ServiceGuess) : Prop where
  version : ∀ v, guess.version = some v → v ≠ "" ∧ v.toList <:+: banner.toList
  product : ∀ p, guess.product = some p → p.toList <:+: banner.toList ∨
    ∃ entry : BannerEntry, (entry.search u banner).isSome ∧ (bannerPattern u entry).product = p
  high : guess.confidence = .high ↔ guess.version.isSome
  low : guess.confidence = .low ↔ guess.product = none

section

variable {u : CharTables} {banner text headerValue : String} {port : ℤ} {guess : ServiceGuess}
  {m : Found Char} {s : List Char}

theorem Grounded.of_part (h : Grounded u text guess) (hpart : text.toList <:+: banner.toList)
    (hproduct : ∀ p, guess.product = some p → p.toList <:+: text.toList) :
    Grounded u banner guess where
  version v hv := ⟨(h.version v hv).1, (h.version v hv).2.trans hpart⟩
  product p hp := Or.inl ((hproduct p hp).trans hpart)
  high := h.high
  low := h.low

theorem ofList_ne_empty {w : List Char} (h : w ≠ []) : String.ofList w ≠ "" := by
  intro he
  have htoList := congrArg String.toList he
  rw [String.toList_ofList] at htoList
  exact h htoList

/-- **A banner.** The version is a group of the entry's pattern, and the product names
the entry. -/
theorem grounded_banner (h : identifyFromBanner u banner port = some guess) :
    Grounded u banner guess := by
  obtain ⟨entry, m, hidentifies, rfl⟩ := identifyFromBanner_eq_some.mp h
  refine ⟨fun v hv => ?_, fun p hp => Or.inr ⟨entry, ?_, Option.some.inj hp⟩, assured_guess entry m,
    ?_⟩
  · obtain ⟨w, hw, rfl⟩ := Option.map_eq_some_iff.mp hv
    obtain ⟨hgroup, hne⟩ := Option.filter_eq_some_iff.mp hw
    refine ⟨ofList_ne_empty (by simpa using hne), ?_⟩
    rw [String.toList_ofList]
    exact infix_of_search hidentifies.found w (List.mem_of_head? hgroup)
  · rw [hidentifies.found]
    rfl
  · unfold BannerEntry.guess
    refine iff_of_false ?_ nofun
    dsimp only
    split_ifs <;> decide

theorem infix_strip : (strip text).toList <:+: text.toList := by
  unfold strip
  rw [String.toList_ofList]
  have hfirst : text.toList.dropWhile isSpace <:+ text.toList := List.dropWhile_suffix _
  have hlast : ((text.toList.dropWhile isSpace).reverse.dropWhile isSpace).reverse <+:
      text.toList.dropWhile isSpace := by
    rw [← List.reverse_suffix, List.reverse_reverse]
    exact List.dropWhile_suffix _
  exact hlast.isInfix.trans hfirst.isInfix

/-- A header that is read has a product, and its version is not empty. -/
theorem groups_header (h : matchStart (httpProductVersion u) s = some m) :
    ∃ product rest, m.groups = product :: rest ∧ ∀ v ∈ rest, v ≠ [] := by
  obtain ⟨m₁, h₁, m₂, h₂, rfl⟩ := mem_run_seqs.mp (mem_of_first h)
  obtain ⟨-, rfl⟩ := mem_run_look.mp h₁
  obtain ⟨m₃, h₃, m₄, h₄, rfl⟩ := mem_run_seqs.mp h₂
  obtain ⟨m₅, h₅, rfl⟩ := mem_run_group.mp h₃
  obtain ⟨w, t, -, ⟨c, -, rfl⟩, m₆, h₆, rfl⟩ := matches_one.mem_run_seqs.mp h₅
  obtain ⟨w', t', -, -, m₇, h₇, rfl⟩ := matches_star.mem_run_seqs.mp h₆
  obtain rfl := mem_run_seqs_nil.mp h₇
  refine ⟨_, m₄.groups, rfl, ?_⟩
  -- the other group is that of the optional part
  obtain ⟨m₈, h₈, m₉, h₉, rfl⟩ := mem_run_seqs.mp h₄
  obtain rfl := mem_run_seqs_nil.mp h₉
  rw [run_opt] at h₈
  rcases List.mem_append.mp h₈ with h₈ | h₈
  · obtain ⟨x, t'', -, -, m₁₀, h₁₀, rfl⟩ := matches_one.mem_run_seqs.mp h₈
    obtain ⟨version, r, -, ⟨hne, -⟩, m₁₁, h₁₁, rfl⟩ := matches_plus.mem_run_group.mp h₁₀
    obtain rfl := mem_run_seqs_nil.mp h₁₁
    intro v hv
    rwa [List.mem_singleton.mp hv]
  · rw [List.mem_singleton.mp h₈]
    exact fun v hv => absurd hv List.not_mem_nil

/-- **A header**, of which product and version are parts. -/
theorem grounded_header : Grounded u headerValue (identifyFromHttpServerHeader u headerValue) ∧
    ∀ p, (identifyFromHttpServerHeader u headerValue).product = some p →
      p.toList <:+: headerValue.toList := by
  have hassured : (identifyFromHttpServerHeader u headerValue).Assured := assured_header
  unfold identifyFromHttpServerHeader at hassured ⊢
  cases hm : matchStart (httpProductVersion u) (strip headerValue).toList with
  | none => exact ⟨⟨nofun, nofun, by simp, by simp⟩, nofun⟩
  | some m =>
    rw [hm] at hassured
    obtain ⟨product, rest, hgroups, hrest⟩ := groups_header hm
    have hpart : ∀ g ∈ m.groups, g <:+: headerValue.toList := fun g hg =>
      ((infix_of_matchStart hm).2 g hg).trans infix_strip
    rw [hgroups, List.forall_mem_cons] at hpart
    dsimp only at hassured ⊢
    rw [hgroups] at hassured ⊢
    have hproduct :
        ∀ p, some (String.ofList product) = some p → p.toList <:+: headerValue.toList := by
      rintro p ⟨⟩
      rw [String.toList_ofList]
      exact hpart.1
    refine ⟨⟨fun v hv => ?_, fun p hp => Or.inl (hproduct p hp), hassured, ?_⟩, hproduct⟩
    · obtain ⟨w, hw, rfl⟩ := Option.map_eq_some_iff.mp hv
      have hmem : w ∈ rest := List.mem_of_getElem? hw
      rw [String.toList_ofList]
      exact ⟨ofList_ne_empty (hrest w hmem), hpart.2 w hmem⟩
    · refine iff_of_false ?_ nofun
      dsimp only
      split_ifs <;> decide

/-- **A guess** of the module is grounded in the banner. -/
theorem grounded_fingerprint (h : fingerprint u banner port = some guess) :
    Grounded u banner guess := by
  unfold fingerprint at h
  cases hguess : identifyFromBanner u banner port with
  | some found =>
    rw [hguess] at h
    rw [← Option.some.inj h]
    exact grounded_banner hguess
  | none =>
    rw [hguess] at h
    obtain ⟨header, hheader, h⟩ := Option.bind_eq_some_iff.mp h
    obtain ⟨value, hvalue, h⟩ := Option.bind_eq_some_iff.mp h
    rw [← Option.some.inj h]
    have hpart : (String.ofList value).toList <:+: banner.toList := by
      rw [String.toList_ofList]
      exact infix_of_search hheader value (List.mem_of_head? hvalue)
    exact grounded_header.1.of_part hpart grounded_header.2

theorem grounded_guess {services : Services} (hfingerprint : services.fingerprint = fingerprint u) :
    Grounded u banner (guessService services banner port) := by
  unfold guessService
  split
  · next guess hguess =>
    rw [hfingerprint] at hguess
    split_ifs at hguess
    exact grounded_fingerprint hguess
  · cases hname : serviceNameForPort port with
    | none => exact ⟨nofun, nofun, by simp, by simp⟩
    | some guess =>
      obtain ⟨name, -, rfl⟩ := Option.map_eq_some_iff.mp hname
      exact ⟨nofun, nofun, by simp, by simp⟩

/-- The version of a CPE name is in the text too. -/
theorem Grounded.core (h : Grounded u banner guess) {core : String}
    (hcore : normalizeVersion u guess.version = some core) : core.toList <:+: banner.toList := by
  unfold normalizeVersion at hcore
  obtain ⟨version, hversion, hcore⟩ := Option.bind_eq_some_iff.mp hcore
  obtain ⟨m, hm, rfl⟩ := Option.map_eq_some_iff.mp hcore
  rw [String.toList_ofList]
  have hstated := (h.version version (eq_some_of_truthy hversion)).2
  exact (((infix_of_matchStart hm).1.isInfix).trans infix_strip).trans hstated

end

/-! ### What is found -/

/-- A finding of a service, with the exchange it comes from. -/
structure Heard (b : BannerServices) (target : ValidatedTarget)
    (clock : String → Option ℤ → ℚ) (f : Finding) (a : IPAddress) (port : ℤ) (e : BannerExchange)
    (banner : String) (guess : ServiceGuess) : Prop where
  address : addressFor target f.host = some a
  opened : b.openStream a port = .opened e
  read : readBanner e = .ok banner
  finding : f = serviceFinding clock f.host port guess banner (decide (port ∈ tlsPorts))

section

variable {u : CharTables} {b : BannerServices} {target : ValidatedTarget}
  {clock : String → Option ℤ → ℚ} {f : Finding}

theorem heard_of_identify {factory : String × ℤ}
    (h : identify (b.read u) target clock factory = .ok (some f)) :
    ∃ a e banner guess, Heard b target clock f a factory.2 e banner guess ∧
      Grounded u banner guess := by
  obtain ⟨host, port⟩ := factory
  unfold identify streamCall at h
  dsimp only at h ⊢
  by_cases hcancelled : (b.read u).cancelled host port = true
  · rw [if_pos hcancelled] at h
    cases h
  · rw [if_neg hcancelled] at h
    cases haddress : addressFor target host with
    | none =>
      rw [haddress] at h
      cases h
    | some a =>
      rw [haddress] at h
      cases hopened : b.openStream a port with
      | failed =>
        simp only [BannerServices.read, Option.map_some, hopened] at h
        cases h
      | raised x =>
        simp only [BannerServices.read, Option.map_some, hopened] at h
        cases h
      | opened e =>
        simp only [Option.map_some, BannerServices.read, hopened] at h
        obtain ⟨banner, hread, h⟩ := Raising.bind_eq_ok.mp h
        cases h
        exact ⟨a, e, banner, _, ⟨haddress, hopened, hread, rfl⟩,
          grounded_guess rfl⟩

end

/-- A server that says nothing until it is asked. -/
def silentServer : BannerServices where
  cancelled _ _ := false
  openStream _ _ := .opened ⟨.bytes [], .bytes ("server: nginx/1.18.0".toList.map fun c =>
    UInt8.ofNat c.toNat)⟩

def silentOpen : List Finding := toFindings (fun _ _ => 0) (labObserved.map Observed.text)

def silentResult : Except Exn ModuleResult :=
  serviceDetect (silentServer.read asciiTables) labPair (fun _ _ => 0) silentOpen

theorem silentResult_titles : silentResult.map (fun result => result.findings.map (·.title)) =
    .ok ["10.10.0.4:80/tcp runs nginx 1.18.0"] := by
  decide +kernel

end ScanLedger
