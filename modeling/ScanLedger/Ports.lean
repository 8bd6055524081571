/-
# Port options

`app/modules/ports.py`: the ports that a scan's options select. The options are
the client's JSON, stored as it came; `int` of a value in them may be a number
or raise, and an infinity raises what neither function catches. The ports to
scan are checked one by one and sorted without repetition; those for discovery
are as given, so that only a list of distinct ports is returned well
(`portOptions_checked_iff`).

Key definitions: `resolvePorts`, `resolveDiscoveryPorts`, `PortsChecked`, `WellListed`.
Key theorems: `resolvePorts_checked_iff`, `resolveDiscoveryPorts_checked_iff`,
`portOptions_checked_iff`.
-/
import Mathlib.Data.List.Dedup
import Mathlib.Data.List.Sort
import ScanLedger.Lib.Raising
import ScanLedger.ScanGuard
import ScanLedger.Values

namespace ScanLedger

/-! ### Selections -/

/-- `TOP_100_PORTS`. -/
def top100Ports : List ℤ :=
  [21, 22, 23, 25, 53, 67, 68, 69, 80, 81, 88, 110, 111, 113, 119, 123, 135, 137, 138, 139, 143,
    161, 162, 179, 389, 427, 443, 445, 465, 500, 512, 513, 514, 515, 543, 544, 548, 554, 587, 631,
    636, 646, 873, 990, 993, 995, 1025, 1026, 1027, 1080, 1099, 1194, 1433, 1434, 1521, 1723, 1883,
    2049, 2082, 2083, 2181, 2375, 2376, 2483, 3000, 3128, 3268, 3306, 3389, 3690, 4444, 4505, 4506,
    4786, 5000, 5060, 5432, 5555, 5601, 5672, 5900, 5901, 5985, 5986, 6000, 6379, 6667, 7001, 8000,
    8008, 8080, 8081, 8088, 8443, 8888, 9000, 9042, 9090, 9200, 9300, 11211, 27017]

def defaultDiscoveryPorts : List ℤ := [80, 443, 22, 445, 3389, 8080, 21, 3306]

/-- `tuple(range(1, stop))`. -/
def portRange (stop : ℕ) : List ℤ := (List.range' 1 (stop - 1)).map Int.ofNat

def wellKnownRange : List ℤ := portRange 1025

def fullRange : List ℤ := portRange 65536

def portSelections : List String := ["top-100", "well-known", "full", "custom"]

/-! ### Reading the options -/

def moduleError (message : String) : Exn := .moduleError "module_failed" message

/-- What `int` raises of an infinity, and nothing catches. -/
def infinityError : Exn := .failure (.other "cannot convert float infinity to integer")

/-- The items of a value that is a list and not empty. -/
def nonEmptyList : Option Json → Option (List Json)
  | some (.arr (.cons item rest)) => some (item :: rest.toList)
  | _ => none

/-- One turn of the loop over the custom ports. -/
def readPort (value : Json) : Except Exn ℤ :=
  match intOf value with
  | .ok port =>
    if 0 < port ∧ port ≤ 65535 then .ok port
    else .error (moduleError ("port " ++ toString port ++ " is outside 1-65535"))
  | .error .overflowError => .error infinityError
  | .error _ => .error (moduleError (reprOf value ++ " is not a valid port number"))

/-- The custom ports, checked, in order and once each. -/
def customPorts (options : JsonFields) : Except Exn (List ℤ) :=
  match nonEmptyList (options.lookup "ports") with
  | none => .error (moduleError
      "the 'custom' port selection needs a non-empty 'ports' list in module options")
  | some raw => do
    let ports ← raw.mapM readPort
    return ports.dedup.insertionSort (· ≤ ·)

def portSelection (options : JsonFields) : String :=
  strOf ((options.lookup "port_selection").getD (.str "top-100"))

def resolvePorts (options : JsonFields) : Except Exn (List ℤ) :=
  let selection := portSelection options
  if selection = "top-100" then .ok top100Ports
  else if selection = "well-known" then .ok wellKnownRange
  else if selection = "full" then .ok fullRange
  else if selection = "custom" then customPorts options
  else .error (moduleError ("unknown port selection " ++ repr selection ++
    "; expected one of " ++ ", ".intercalate portSelections))

/-- The discovery ports of a list, as they are. -/
def listedPorts (raw : List Json) : Except Exn (List ℤ) :=
  match raw.mapM intOf with
  | .ok ports => .ok ports
  | .error .overflowError => .error infinityError
  | .error _ => .error (moduleError "'discovery_ports' must contain port numbers")

def resolveDiscoveryPorts (options : JsonFields) : Except Exn (List ℤ) :=
  match options.lookup "discovery_ports" with
  | none | some .null => .ok defaultDiscoveryPorts
  | some raw => match nonEmptyList (some raw) with
    | none => .error (moduleError "'discovery_ports' must be a non-empty list of port numbers")
    | some raw => listedPorts raw

/-! ### What is returned -/

/-- A port, as `connect` has it. -/
def IsPortNumber (port : ℤ) : Prop := 1 ≤ port ∧ port ≤ 65535

/-- A module error, or distinct ports and at least one. -/
def PortsChecked (result : Except Exn (List ℤ)) : Prop :=
  (∃ message, result = .error (moduleError message)) ∨
    ∃ ports, result = .ok ports ∧ ports ≠ [] ∧ ports.Nodup ∧ ∀ port ∈ ports, IsPortNumber port

/-- The items of the list under this name, or none. -/
def listed (options : JsonFields) (name : String) : List Json :=
  (nonEmptyList (options.lookup name)).getD []

/-- `int(value)` is a number. -/
def IsNumber (value : Json) : Prop := ∃ n, intOf value = .ok n

/-- `int(value)` is a port. -/
def IsPort (value : Json) : Prop := ∃ port, intOf value = .ok port ∧ IsPortNumber port

/-- Past fine values only, there is an infinity. -/
def MeetsInfinity (fine : Json → Prop) (raw : List Json) : Prop :=
  ∃ before negative after, raw = before ++ Json.float (.infinity negative) :: after ∧
    ∀ value ∈ before, fine value

/-- Options that both functions deal with as they should. -/
structure WellListed (options : JsonFields) : Prop where
  custom : portSelection options = "custom" → ¬ MeetsInfinity IsPort (listed options "ports")
  discovery : ¬ MeetsInfinity IsNumber (listed options "discovery_ports")
  ports : ∀ ports : List ℤ, (listed options "discovery_ports").map intOf = ports.map .ok →
    ports.Nodup ∧ ∀ port ∈ ports, IsPortNumber port

section

variable {result : Except Exn (List ℤ)} {value : Json} {raw : List Json} {options : JsonFields}

theorem intOf_eq_overflow :
    intOf value = .error .overflowError ↔ ∃ negative, value = .float (.infinity negative) := by
  constructor
  · intro h
    cases value with
    | float x =>
      cases x with
      | infinity negative => exact ⟨negative, rfl⟩
      | finite q => cases h
      | nan => cases h
    | str s =>
      simp only [intOf] at h
      split at h <;> cases h
    | null => cases h
    | bool b => cases h
    | int n => cases h
    | arr items => cases h
    | obj fields => cases h
  · rintro ⟨negative, rfl⟩
    rfl

theorem not_portsChecked_infinity : ¬ PortsChecked (.error infinityError) := by
  rintro (⟨message, h⟩ | ⟨ports, h, -⟩)
  · cases h
  · cases h

theorem portsChecked_moduleError (message : String) :
    PortsChecked (.error (moduleError message)) := Or.inl ⟨message, rfl⟩

theorem nodup_portRange (stop : ℕ) : (portRange stop).Nodup := by
  have hrange : (List.range' 1 (stop - 1)).Nodup := List.nodup_range'
  exact hrange.map Int.ofNat_injective

theorem isPortNumber_portRange {stop : ℕ} (h : stop ≤ 65536) {port : ℤ}
    (hport : port ∈ portRange stop) : IsPortNumber port := by
  obtain ⟨n, hn, rfl⟩ := List.mem_map.mp hport
  rw [List.mem_range'_1] at hn
  unfold IsPortNumber
  rw [Int.ofNat_eq_natCast]
  omega

theorem portsChecked_portRange {stop : ℕ} (h : stop ≤ 65536) (h1 : 1 < stop) :
    PortsChecked (.ok (portRange stop)) := by
  refine Or.inr ⟨_, rfl, fun hnil => ?_, nodup_portRange stop,
    fun port => isPortNumber_portRange h⟩
  have hlen := congrArg List.length hnil
  rw [portRange, List.length_map, List.length_range', List.length_nil] at hlen
  omega

theorem portsChecked_top100 : PortsChecked (.ok top100Ports) :=
  Or.inr ⟨_, rfl, by decide, by decide +kernel, by unfold IsPortNumber; decide +kernel⟩

theorem portsChecked_defaultDiscoveryPorts : PortsChecked (.ok defaultDiscoveryPorts) :=
  Or.inr ⟨_, rfl, by decide, by decide, by unfold IsPortNumber; decide⟩

/-! ### The ports to scan -/

theorem readPort_eq_ok {port : ℤ} :
    readPort value = .ok port ↔ intOf value = .ok port ∧ IsPortNumber port := by
  unfold readPort IsPortNumber
  cases hv : intOf value with
  | error e => cases e <;> exact ⟨nofun, fun h => by cases h.1⟩
  | ok n =>
    dsimp only
    split_ifs with hn
    · constructor
      · rintro ⟨⟩
        exact ⟨rfl, hn.1, hn.2⟩
      · rintro ⟨⟨⟩, -⟩
        rfl
    · refine ⟨nofun, ?_⟩
      rintro ⟨⟨⟩, h1, h2⟩
      exact absurd ⟨h1, h2⟩ hn

/-- What is not a port is a module error, but for an infinity. -/
theorem readPort_eq_error {x : Exn} (h : readPort value = .error x) :
    (∃ message, x = moduleError message) ∨
      (x = infinityError ∧ intOf value = .error .overflowError) := by
  unfold readPort at h
  cases hv : intOf value with
  | error e =>
    rw [hv] at h
    cases e <;> cases h
    · exact Or.inl ⟨_, rfl⟩
    · exact Or.inl ⟨_, rfl⟩
    · exact Or.inr ⟨rfl, rfl⟩
  | ok n =>
    rw [hv] at h
    dsimp only at h
    split_ifs at h
    cases h
    exact Or.inl ⟨_, rfl⟩

theorem readPort_infinity (negative : Bool) :
    readPort (.float (.infinity negative)) = .error infinityError := rfl

/-- The custom ports, once they are read. -/
theorem portsChecked_of_read {ports : List ℤ} (hne : raw ≠ [])
    (hr : raw.mapM readPort = .ok ports) :
    PortsChecked (.ok (ports.dedup.insertionSort (· ≤ ·))) := by
  have hall := Raising.mapM_eq_ok.mp hr
  refine Or.inr ⟨_, rfl, fun hnil => ?_, ?_, fun port hport => ?_⟩
  · have hdedup := List.perm_nil.mp (hnil ▸ (List.perm_insertionSort (· ≤ ·) ports.dedup).symm)
    have hports : ports = [] := by simpa using hdedup
    rw [hports] at hall
    exact hne (List.map_eq_nil_iff.mp hall)
  · exact (List.perm_insertionSort _ _).nodup_iff.mpr (List.nodup_dedup ports)
  · have hmem : port ∈ ports := List.mem_dedup.mp ((List.mem_insertionSort _).mp hport)
    have hread : .ok port ∈ raw.map readPort := hall ▸ List.mem_map_of_mem hmem
    obtain ⟨value, -, hvalue⟩ := List.mem_map.mp hread
    exact (readPort_eq_ok.mp hvalue).2

/-- The custom ports of a list are checked unless an infinity is met. -/
theorem portsChecked_readPorts (hne : raw ≠ []) :
    PortsChecked (do let ports ← raw.mapM readPort
                     return ports.dedup.insertionSort (· ≤ ·)) ↔ ¬ MeetsInfinity IsPort raw := by
  have hmeets : MeetsInfinity IsPort raw → raw.mapM readPort = .error infinityError := by
    rintro ⟨before, negative, after, hraw, hbefore⟩
    refine Raising.mapM_eq_error.mpr
      ⟨before, _, after, hraw, fun v hv => ?_, readPort_infinity negative⟩
    obtain ⟨port, hport⟩ := hbefore v hv
    exact ⟨port, readPort_eq_ok.mpr hport⟩
  cases hr : raw.mapM readPort with
  | error x =>
    obtain ⟨before, value, after, hraw, hbefore, hvalue⟩ := Raising.mapM_eq_error.mp hr
    rcases readPort_eq_error hvalue with ⟨message, rfl⟩ | ⟨rfl, hoverflow⟩
    · refine iff_of_true (portsChecked_moduleError message) fun h => ?_
      rw [hmeets h] at hr
      cases hr
    · refine iff_of_false not_portsChecked_infinity (not_not.mpr ?_)
      obtain ⟨negative, rfl⟩ := intOf_eq_overflow.mp hoverflow
      refine ⟨before, negative, after, hraw, fun v hv => ?_⟩
      obtain ⟨port, hport⟩ := hbefore v hv
      exact ⟨port, readPort_eq_ok.mp hport⟩
  | ok ports =>
    refine iff_of_true (portsChecked_of_read hne hr) fun h => ?_
    rw [hmeets h] at hr
    cases hr

theorem nonEmptyList_ne_nil {value : Option Json} (h : nonEmptyList value = some raw) :
    raw ≠ [] := by
  unfold nonEmptyList at h
  split at h
  · cases h
    exact List.cons_ne_nil _ _
  · cases h

/-- In no values at all, no infinity is met. -/
theorem not_meetsInfinity_nil {fine : Json → Prop} : ¬ MeetsInfinity fine [] := by
  rintro ⟨before, negative, after, h, -⟩
  cases before <;> cases h

theorem customPorts_checked_iff (options : JsonFields) : PortsChecked (customPorts options) ↔
    ¬ MeetsInfinity IsPort (listed options "ports") := by
  unfold customPorts listed
  cases hraw : nonEmptyList (options.lookup "ports") with
  | none => exact iff_of_true (portsChecked_moduleError _) not_meetsInfinity_nil
  | some raw => exact portsChecked_readPorts (nonEmptyList_ne_nil hraw)

/-- **The ports to scan** are checked, unless an infinity is met among the custom
ones. -/
theorem resolvePorts_checked_iff (options : JsonFields) : PortsChecked (resolvePorts options) ↔
    (portSelection options = "custom" → ¬ MeetsInfinity IsPort (listed options "ports")) := by
  unfold resolvePorts
  dsimp only
  by_cases hcustom : portSelection options = "custom"
  · rw [hcustom, if_neg (by decide), if_neg (by decide), if_neg (by decide), if_pos rfl,
      customPorts_checked_iff]
    exact ⟨fun h _ => h, fun h => h rfl⟩
  · refine iff_of_true ?_ fun h => absurd h hcustom
    split_ifs
    · exact portsChecked_top100
    · exact portsChecked_portRange (by norm_num) (by norm_num)
    · exact portsChecked_portRange (by norm_num) (by norm_num)
    · exact portsChecked_moduleError _

/-- What is returned is checked. -/
theorem portsChecked_of_resolvePorts {ports : List ℤ} (h : resolvePorts options = .ok ports) :
    ports ≠ [] ∧ ports.Nodup ∧ ∀ port ∈ ports, IsPortNumber port := by
  have hchecked : PortsChecked (.ok ports) := by
    unfold resolvePorts at h
    dsimp only at h
    split_ifs at h
    · cases h
      exact portsChecked_top100
    · cases h
      exact portsChecked_portRange (by norm_num) (by norm_num)
    · cases h
      exact portsChecked_portRange (by norm_num) (by norm_num)
    · unfold customPorts at h
      split at h
      · cases h
      · next raw hraw =>
        cases hr : raw.mapM readPort with
        | error x =>
          rw [hr] at h
          cases h
        | ok read =>
          rw [hr] at h
          cases h
          exact portsChecked_of_read (nonEmptyList_ne_nil hraw) hr
  rcases hchecked with ⟨message, he⟩ | ⟨_, ⟨⟩, hports⟩
  · cases he
  · exact hports

/-! ### The ports for discovery -/

theorem listedPorts_checked_iff (hne : raw ≠ []) : PortsChecked (listedPorts raw) ↔
    ¬ MeetsInfinity IsNumber raw ∧ ∀ ports : List ℤ, raw.map intOf = ports.map .ok →
      ports.Nodup ∧ ∀ port ∈ ports, IsPortNumber port := by
  unfold listedPorts
  cases hr : raw.mapM intOf with
  | error e =>
    have hnone : ∀ ports : List ℤ, raw.map intOf ≠ ports.map .ok := fun ports hports => by
      rw [Raising.mapM_eq_ok.mpr hports] at hr
      cases hr
    have hmeets : MeetsInfinity IsNumber raw ↔ e = .overflowError := by
      constructor
      · rintro ⟨before, negative, after, hraw, hbefore⟩
        have hinfinity := Raising.mapM_eq_error.mpr ⟨before, _, after, hraw, hbefore, rfl⟩
        rw [hr] at hinfinity
        cases hinfinity
        rfl
      · rintro rfl
        obtain ⟨before, value, after, hraw, hbefore, hvalue⟩ := Raising.mapM_eq_error.mp hr
        obtain ⟨negative, rfl⟩ := intOf_eq_overflow.mp hvalue
        exact ⟨before, negative, after, hraw, hbefore⟩
    rw [hmeets]
    cases e with
    | overflowError => exact iff_of_false not_portsChecked_infinity fun h => h.1 rfl
    | typeError =>
      exact iff_of_true (portsChecked_moduleError _) ⟨nofun, fun ports h => absurd h (hnone ports)⟩
    | valueError =>
      exact iff_of_true (portsChecked_moduleError _) ⟨nofun, fun ports h => absurd h (hnone ports)⟩
  | ok ports =>
    have hall := Raising.mapM_eq_ok.mp hr
    have hunique : ∀ ports' : List ℤ, raw.map intOf = ports'.map .ok → ports' = ports :=
      fun ports' h => by
        rw [Raising.mapM_eq_ok.mpr h] at hr
        cases hr
        rfl
    have hfinite : ¬ MeetsInfinity IsNumber raw := by
      rintro ⟨before, negative, after, hraw, hbefore⟩
      rw [Raising.mapM_eq_error.mpr ⟨before, _, after, hraw, hbefore, rfl⟩] at hr
      cases hr
    constructor
    · rintro (⟨message, h⟩ | ⟨_, ⟨⟩, -, hnodup, hin⟩)
      · cases h
      · refine ⟨hfinite, fun ports' h => ?_⟩
        rw [hunique ports' h]
        exact ⟨hnodup, hin⟩
    · rintro ⟨-, h⟩
      refine Or.inr ⟨ports, rfl, fun hnil => hne ?_, h ports hall⟩
      rw [hnil] at hall
      exact List.map_eq_nil_iff.mp hall

/-- **The ports for discovery** are checked if they are distinct ports already, or
a value before any infinity is no number. -/
theorem resolveDiscoveryPorts_checked_iff (options : JsonFields) :
    PortsChecked (resolveDiscoveryPorts options) ↔
      ¬ MeetsInfinity IsNumber (listed options "discovery_ports") ∧
        ∀ ports : List ℤ, (listed options "discovery_ports").map intOf = ports.map .ok →
          ports.Nodup ∧ ∀ port ∈ ports, IsPortNumber port := by
  have hempty : ∀ ports : List ℤ, ([] : List Json).map intOf = ports.map .ok →
      ports.Nodup ∧ ∀ port ∈ ports, IsPortNumber port := fun ports h => by
    rw [List.map_eq_nil_iff.mp h.symm]
    exact ⟨List.nodup_nil, nofun⟩
  unfold resolveDiscoveryPorts listed
  split
  · next h =>
    rw [h]
    exact iff_of_true portsChecked_defaultDiscoveryPorts ⟨not_meetsInfinity_nil, hempty⟩
  · next h =>
    rw [h]
    exact iff_of_true portsChecked_defaultDiscoveryPorts ⟨not_meetsInfinity_nil, hempty⟩
  · next raw _ h =>
    rw [h]
    cases hraw : nonEmptyList (some raw) with
    | none => exact iff_of_true (portsChecked_moduleError _) ⟨not_meetsInfinity_nil, hempty⟩
    | some items => exact listedPorts_checked_iff (nonEmptyList_ne_nil hraw)

end

/-- **Port options.** Both functions raise a module error or return distinct ports
exactly where the options are well listed. -/
theorem portOptions_checked_iff (options : JsonFields) :
    PortsChecked (resolvePorts options) ∧ PortsChecked (resolveDiscoveryPorts options) ↔
      WellListed options := by
  rw [resolvePorts_checked_iff, resolveDiscoveryPorts_checked_iff]
  exact ⟨fun ⟨h1, h2, h3⟩ => ⟨h1, h2, h3⟩, fun ⟨h1, h2, h3⟩ => ⟨h1, h2, h3⟩⟩

/-- A discovery port that is no port. -/
theorem not_portOptions_checked : ¬ ∀ options : JsonFields,
    PortsChecked (resolvePorts options) ∧ PortsChecked (resolveDiscoveryPorts options) := by
  intro h
  have hports := (resolveDiscoveryPorts_checked_iff _).mp
    (h (.cons "discovery_ports" (.array [.int 70000]) .nil)).2
  have hin := (hports.2 [70000] rfl).2 70000 List.mem_cons_self
  exact absurd hin.2 (by decide)

end ScanLedger
