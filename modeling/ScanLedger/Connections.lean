/-
# Connections and slots

The calls of `connect` and `open_stream` as the tasks of a governor. A slot is
given back when `connect` returns, and the socket it returns lives on, so the
connections of a run are not bounded by the permits: with one permit, two calls
one after the other leave two open connections (`not_connections_within`). The
ceilings hold in the runs that start an attempt only while the connections that
outlived their slot are fewer than the permits without a connection, over all
and on the host (`connections_within`).

Key definitions: `Conn`, `connStep`, `live`, `RoomForAttempt`.
Key theorems: `permits_connStep`, `live_connStep`, `connections_within`.
-/
import ScanLedger.Connect
import ScanLedger.Permits

namespace ScanLedger

open Governor Run Tasks

/-- A call of `connect` or `open_stream`: what is left of its program. -/
structure Conn where
  prog : Guard Unit
  call : Call

/-- The operation of the call is answered. -/
def Conn.advance (env : Env) (b : Conn) : Conn :=
  match b.prog.head with
  | none => b
  | some o => ⟨b.prog.answer fun o => (handle env b.call o).1, (handle env b.call o).2⟩

def Conn.closed (b : Conn) : Conn := ⟨b.prog, { b.call with sock := .closed }⟩

/-- The task's call goes on. -/
def advanceAt (env : Env) (s : State Conn) (i : ℕ) : State Conn :=
  match s.tasks[i]? with
  | none => s
  | some t => s.setBody i t (t.body.advance env)

/-- What `governor.slot` comes to for a task in this phase, once it does. -/
def slotResult : Phase → Option (Except SlotError Unit)
  | .inSlot => some (.ok ())
  | .refused e => some (.error (.budget e))
  | .cancelled => some (.error (.failure .cancelled))
  | _ => none

/-- After a move of the governor, the call goes on if its slot is settled. -/
def settle (s : State Conn) (i : ℕ) : State Conn :=
  match s.tasks[i]? with
  | none => s
  | some t => match slotResult t.phase with
    | none => s
    | some r => advanceAt { Env.calm [] with slot := r } s i

inductive ConnAct
  | tick (d : ℚ)
  | connect (target : ValidatedTarget) (a : IPAddress) (port : ℤ)
  | openStream (target : ValidatedTarget) (a : IPAddress) (port : ℤ) (useTls : Bool)
  /-- A task waiting for its slot goes on, or is cancelled. -/
  | resume (i : ℕ)
  | cancel (i : ℕ)
  /-- Any other operation of a call. -/
  | serve (i : ℕ) (env : Env)
  /-- Whoever has the socket or stream of an ended call closes it. -/
  | close (i : ℕ)

/-- The governor's part of an operation of task `i`. -/
def governs (i : ℕ) : Op → Option (Act Conn)
  | .release _ => some (.leave i)
  | .reportError host => some (.reportError host)
  | .reportSuccess host => some (.reportSuccess host)
  | _ => none

def Op.isSlot : Op → Bool
  | .slot _ => true
  | _ => false

/-- The operation task `i` waits to have answered. -/
def headOf (s : State Conn) (i : ℕ) : Option Op := (s.tasks[i]?).bind fun t => t.body.prog.head

def closeAt (s : State Conn) (i : ℕ) : Option (State Conn) :=
  match s.tasks[i]? with
  | none => none
  | some t => match t.body.prog.head with
    | some _ => none
    | none => some (s.setBody i t t.body.closed)

def connStep (L : ValidLimits) (scope : ScopeProfile) (s : State Conn) :
    ConnAct → Option (State Conn)
  | .tick d => step L s (.tick d)
  | .connect target a port =>
    step L s (.spawn a.str ⟨ScanLedger.connect scope target a port, .new false⟩)
  | .openStream target a port useTls =>
    step L s (.spawn a.str ⟨ScanLedger.openStream scope target a port useTls, .new false⟩)
  | .resume i => match headOf s i with
    | some (.slot _) => (step L s (.resume i)).map fun s => settle s i
    | _ => none
  | .cancel i => match headOf s i with
    | some (.slot _) => (step L s (.cancel i)).map fun s => settle s i
    | _ => none
  | .serve i env => match headOf s i with
    | none => none
    | some o => if o.isSlot then none else match governs i o with
      | none => some (advanceAt env s i)
      | some a => (step L s a).map fun s => advanceAt env s i
  | .close i => closeAt s i

/-! ### Connections -/

/-- Has a socket that is being connected, or is connected and not closed. -/
def live (t : Governor.Task Conn) : Bool := t.body.call.sock == .opened && t.body.call.started

/-- Its connection outlived its slot. -/
def lingering (t : Governor.Task Conn) : Bool := live t && !holdsGlobal t

/-- Permits of the global semaphore that no connection goes with: the free
ones, and those of tasks without a connection. -/
def idle (s : State Conn) : ℕ := s.globalFree + s.tasks.countP fun t => holdsGlobal t && !live t

def liveOn (host : String) (t : Governor.Task Conn) : Bool := live t && t.host == host

def lingeringOn (host : String) (t : Governor.Task Conn) : Bool := liveOn host t && !inSlotOn host t

/-- Likewise for the permits of a host. -/
def idleOn (L : ValidLimits) (s : State Conn) (host : String) : ℕ :=
  s.hostFree L host + s.tasks.countP fun t => inSlotOn host t && !live t

/-- The hosts a step starts an attempt on. -/
def starts (s : State Conn) : ConnAct → List String
  | .serve i env => match s.tasks[i]? with
    | none => []
    | some t => match t.body.prog.head, env.sockConnect with
      | some (.sockConnect _ _), .ok () => [t.host]
      | _, _ => []
  | _ => []

/-- An attempt is started only with fewer lingering connections than idle
permits. -/
def RoomForAttempt (L : ValidLimits) (s : State Conn) (a : ConnAct) : Prop :=
  ∀ host ∈ starts s a, s.tasks.countP lingering < idle s ∧
    s.tasks.countP (lingeringOn host) < idleOn L s host

instance (L : ValidLimits) (s : State Conn) (a : ConnAct) : Decidable (RoomForAttempt L s a) :=
  inferInstanceAs (Decidable (∀ host ∈ starts s a, _ ∧ _))

/-! ### What a step does -/

section

variable {L : ValidLimits} {scope : ScopeProfile} {s s' : State Conn} {i : ℕ}
  {t : Governor.Task Conn}

/-- The acts of a governor other than a new task. -/
def spawns : Act Conn → Bool
  | .spawn _ _ => true
  | _ => false

/-- A move of the governor leaves the calls as they are. -/
theorem countP_step {a : Act Conn} (h : step L s a = some s') (ha : spawns a = false)
    (f : Governor.Task Conn → Bool) (hf : ∀ t p, f { t with phase := p } = f t) :
    s'.tasks.countP f = s.tasks.countP f := by
  rcases step_tasks h with ⟨host, body, rfl, -⟩ | hs | ⟨i, t, p, ht, hs⟩
  · cases ha
  · rw [hs]
  · rw [hs]
    exact countP_set_eq ht (hf t p)

theorem headOf_step {a : Act Conn} (h : step L s a = some s') (ha : spawns a = false) (j : ℕ) :
    headOf s' j = headOf s j := by
  unfold headOf
  rcases step_tasks h with ⟨host, body, rfl, -⟩ | hs | ⟨i, t, p, ht, hs⟩
  · cases ha
  · rw [hs]
  · rw [hs, List.getElem?_set]
    split_ifs with hij hlt
    · subst hij
      simp [ht]
    · subst hij
      rw [List.getElem?_eq_none (by omega)]
    · rfl

theorem permits_setBody (hi : Permits L s) (ht : s.tasks[i]? = some t) (b : Conn) :
    Permits L (s.setBody i t b) :=
  hi.set ht rfl rfl fun _ => rfl

theorem starts_of_head {env : Env} {o : Op} (h : headOf s i = some o) (ho : o.isAttempt = false) :
    starts s (.serve i env) = [] := by
  unfold headOf at h
  obtain ⟨t, ht, hp⟩ := Option.bind_eq_some_iff.mp h
  simp only [starts, ht, hp]
  cases o <;> first | rfl | cases ho

/-- A step is one of the governor, which a call may take note of; or the answer
to a call's own operation; or the end of a connection. -/
inductive ConnMoves (L : ValidLimits) (s : State Conn) (a : ConnAct) : State Conn → Prop
  | governs (act : Act Conn) {s₁ : State Conn} (h : step L s act = some s₁)
      (hact : ∀ host body, act = .spawn host body → body.call = .new false)
      (ha : starts s a = []) : ConnMoves L s a s₁
  | goesOn {act : Act Conn} {s₁ : State Conn} (env : Env) (i : ℕ) (h : step L s act = some s₁)
      (hact : spawns act = false) (h₁ : starts s₁ (.serve i env) = []) (ha : starts s a = []) :
      ConnMoves L s a (advanceAt env s₁ i)
  | serves (env : Env) (i : ℕ) (ha : a = .serve i env) : ConnMoves L s a (advanceAt env s i)
  | closes {t : Governor.Task Conn} (i : ℕ) (ht : s.tasks[i]? = some t) (ha : starts s a = []) :
      ConnMoves L s a (s.setBody i t t.body.closed)

theorem settle_moves {act : Act Conn} {s₁ : State Conn} {a : ConnAct} {host : String}
    (h : step L s act = some s₁) (hact : spawns act = false) (hs : headOf s i = some (.slot host))
    (ha : starts s a = []) : ConnMoves L s a (settle s₁ i) := by
  have hgov : ConnMoves L s a s₁ :=
    .governs act h (fun host body he => by subst he; cases hact) ha
  unfold settle
  split
  · exact hgov
  · split
    · exact hgov
    · rename_i r hr
      exact .goesOn _ i h hact
        (starts_of_head ((headOf_step h hact i).trans hs) rfl) ha

theorem connStep_moves {a : ConnAct} (h : connStep L scope s a = some s') :
    ConnMoves L s a s' := by
  cases a with
  | tick d => exact .governs (.tick d) h nofun rfl
  | connect target a port =>
    refine .governs (.spawn a.str _) h (fun host body he => ?_) rfl
    cases he; rfl
  | openStream target a port useTls =>
    refine .governs (.spawn a.str _) h (fun host body he => ?_) rfl
    cases he; rfl
  | resume i =>
    simp only [connStep] at h
    split at h
    · rename_i host hs
      obtain ⟨s₁, h₁, rfl⟩ := Option.map_eq_some_iff.mp h
      exact settle_moves h₁ rfl hs rfl
    · cases h
  | cancel i =>
    simp only [connStep] at h
    split at h
    · rename_i host hs
      obtain ⟨s₁, h₁, rfl⟩ := Option.map_eq_some_iff.mp h
      exact settle_moves h₁ rfl hs rfl
    · cases h
  | serve i env =>
    simp only [connStep] at h
    split at h
    · cases h
    · rename_i o ho
      split_ifs at h
      split at h
      · cases h
        exact .serves env i rfl
      · rename_i act hg
        obtain ⟨s₁, h₁, rfl⟩ := Option.map_eq_some_iff.mp h
        have hq : o.isAttempt = false ∧ spawns act = false := by
          cases o <;> simp [governs] at hg <;> subst hg <;> exact ⟨rfl, rfl⟩
        exact .goesOn env i h₁ hq.2
          (starts_of_head ((headOf_step h₁ hq.2 i).trans ho) hq.1) (starts_of_head ho hq.1)
  | close i =>
    simp only [connStep, closeAt] at h
    split at h
    · cases h
    · rename_i t ht
      split at h
      · cases h
      · cases h
        exact .closes i ht rfl

/-! ### Permits and connections -/

theorem permits_advanceAt (hi : Permits L s) (env : Env) (i : ℕ) :
    Permits L (advanceAt env s i) := by
  unfold advanceAt
  split
  · exact hi
  · rename_i t ht
    exact permits_setBody hi ht _

/-- The permits add up whatever the calls do. -/
theorem permits_connStep {a : ConnAct} (hi : Permits L s) (h : connStep L scope s a = some s') :
    Permits L s' := by
  cases connStep_moves h with
  | governs act h₁ => exact permits_step hi h₁
  | goesOn env i h₁ => exact permits_advanceAt (permits_step hi h₁) env i
  | serves env i => exact permits_advanceAt hi env i
  | closes i ht => exact permits_setBody hi ht _

/-- Only the start of an attempt brings a connection about. -/
theorem live_handle (env : Env) (c : Call) (o : Op)
    (h : (handle env c o).2.sock = .opened ∧ (handle env c o).2.started = true) :
    (c.sock = .opened ∧ c.started = true) ∨
      (∃ a port, o = .sockConnect a port) ∧ env.sockConnect = .ok () := by
  cases o with
  | sockConnect a port =>
    cases hc : env.sockConnect with
    | ok u => exact Or.inr ⟨⟨a, port, rfl⟩, rfl⟩
    | error f => simp only [handle, hc] at h; exact Or.inl h
  | socket v =>
    simp only [handle] at h
    cases hs : env.socket with
    | ok u => simp [hs] at h
    | error f => simp only [hs] at h; exact Or.inl h
  | slot host =>
    simp only [handle] at h
    cases hs : env.slot with
    | ok u => simp only [hs] at h; exact Or.inl h
    | error e => simp only [hs] at h; exact Or.inl h
  | close => simp [handle] at h
  | resolve | record | release | setActive | resetActive | connected | reportError
  | reportSuccess | openConnection => exact Or.inl h

/-- The connections to the hosts `q`. -/
def liveWhere (q : String → Bool) (s : State Conn) : ℕ :=
  s.tasks.countP fun t => live t && q t.host

theorem live_setBody (q : String → Bool) (ht : s.tasks[i]? = some t) (b : Conn) :
    liveWhere q (s.setBody i t b) + (if live t && q t.host then 1 else 0) =
      liveWhere q s + if live { t with body := b } && q t.host then 1 else 0 :=
  countP_set_add ht _

theorem live_advanceAt (q : String → Bool) (env : Env) (s : State Conn) (i : ℕ) :
    liveWhere q (advanceAt env s i) ≤ liveWhere q s + (starts s (.serve i env)).countP q := by
  unfold advanceAt
  split
  · omega
  · rename_i t ht
    have hset := live_setBody q ht (t.body.advance env)
    cases hp : t.body.prog.head with
    | none =>
      have hsame : live { t with body := t.body.advance env } = live t := by
        simp [live, Conn.advance, hp]
      rw [hsame] at hset
      omega
    | some o =>
      have hlive : live { t with body := t.body.advance env } = true →
          live t = true ∨ (starts s (.serve i env)).countP q = if q t.host then 1 else 0 := by
        intro h
        simp only [live, Conn.advance, hp, Bool.and_eq_true, beq_iff_eq] at h
        rcases live_handle env t.body.call o h with h | ⟨⟨a, port, rfl⟩, hok⟩
        · exact Or.inl (by simpa [live] using h)
        · exact Or.inr (by simp [starts, ht, hp, hok, List.countP_singleton])
      cases h1 : live { t with body := t.body.advance env } with
      | false =>
        rw [h1] at hset
        simp only [Bool.false_and, Bool.false_eq_true, if_false] at hset
        omega
      | true =>
        rcases hlive h1 with h2 | h2
        · rw [h1, h2] at hset
          omega
        · rw [h1, Bool.true_and] at hset
          omega

/-- A step brings about no connection but the one it starts. -/
theorem live_connStep (q : String → Bool) {a : ConnAct} (h : connStep L scope s a = some s') :
    liveWhere q s' ≤ liveWhere q s + (starts s a).countP q := by
  cases connStep_moves h with
  | governs act h₁ hact ha =>
    rw [ha]
    rcases step_tasks h₁ with ⟨host, body, rfl, hs⟩ | hs | ⟨i, t, p, ht, hs⟩
    · have hnew : live ⟨host, .entering, body⟩ = false := by
        simp [live, hact host body rfl, Call.new]
      simp [liveWhere, hs, hnew]
    · simp [liveWhere, hs]
    · have hset := countP_set_eq (y := { t with phase := p }) ht
        (p := fun t => live t && q t.host) rfl
      unfold liveWhere
      rw [hs, hset]
      omega
  | @goesOn act s₁ env i h₁ hact h₂ ha =>
    have hadv := live_advanceAt q env s₁ i
    have hgov : liveWhere q s₁ = liveWhere q s :=
      countP_step h₁ hact (fun t => live t && q t.host) fun _ _ => rfl
    rw [h₂, hgov] at hadv
    rw [ha]
    exact hadv
  | serves env i ha => rw [ha]; exact live_advanceAt q env s i
  | @closes t i ht ha =>
    have hset := live_setBody q ht t.body.closed
    have hclosed : live { t with body := t.body.closed } = false := rfl
    rw [hclosed] at hset
    rw [ha, List.countP_nil]
    simp only [Bool.false_and, Bool.false_eq_true, if_false] at hset
    omega

/-! ### The ceilings -/

/-- Connections and idle permits are the lingering connections and the permits
there are. -/
theorem live_add_idle (hi : Permits L s) :
    s.tasks.countP live + idle s = s.tasks.countP lingering + L.globalPermits := by
  have h1 := countP_split s.tasks live holdsGlobal
  have h2 := countP_split s.tasks holdsGlobal live
  have h3 := hi.globals
  have hcomm : (fun t : Governor.Task Conn => live t && holdsGlobal t) =
      fun t => holdsGlobal t && live t :=
    funext fun t => Bool.and_comm _ _
  rw [hcomm] at h1
  unfold idle
  have hl : s.tasks.countP lingering = s.tasks.countP fun t => live t && !holdsGlobal t := rfl
  omega

theorem live_add_idleOn (hi : Permits L s) (host : String) :
    s.tasks.countP (liveOn host) + idleOn L s host =
      s.tasks.countP (lingeringOn host) + L.hostPermits := by
  have h1 := countP_split s.tasks (liveOn host) (inSlotOn host)
  have h2 := countP_split s.tasks (inSlotOn host) live
  have h3 := hi.hosts host
  have hcomm : (fun t : Governor.Task Conn => liveOn host t && inSlotOn host t) =
      fun t => inSlotOn host t && live t := by
    funext t
    cases hh : t.host == host <;> cases hl : live t <;> simp [liveOn, inSlotOn, hh, hl]
  rw [hcomm] at h1
  unfold idleOn
  have hl : s.tasks.countP (lingeringOn host) =
    s.tasks.countP fun t => liveOn host t && !inSlotOn host t := rfl
  omega

/-- The permits add up and the connections are within them. -/
structure Within (L : ValidLimits) (s : State Conn) : Prop where
  permits : Permits L s
  scan : s.tasks.countP live ≤ L.globalPermits
  host : ∀ host, s.tasks.countP (liveOn host) ≤ L.hostPermits

theorem within_init (L : ValidLimits) (now : ℚ) : Within L (init L now) :=
  ⟨permits_init L now, Nat.zero_le _, fun _ => Nat.zero_le _⟩

theorem starts_cases (s : State Conn) (a : ConnAct) :
    starts s a = [] ∨ ∃ host, starts s a = [host] := by
  unfold starts
  split
  · split
    · exact Or.inl rfl
    · split
      · exact Or.inr ⟨_, rfl⟩
      · exact Or.inl rfl
  · exact Or.inl rfl

theorem within_step {a : ConnAct} (hi : Within L s) (hr : RoomForAttempt L s a)
    (h : connStep L scope s a = some s') : Within L s' := by
  have hlive : s'.tasks.countP live ≤ s.tasks.countP live + (starts s a).length := by
    have hl := live_connStep (fun _ => true) h
    simpa [liveWhere] using hl
  have hliveOn : ∀ host, s'.tasks.countP (liveOn host) ≤
      s.tasks.countP (liveOn host) + (starts s a).countP fun h => h == host := fun host =>
    live_connStep (fun h => h == host) h
  rcases starts_cases s a with hnil | ⟨host, hone⟩
  · refine ⟨permits_connStep hi.permits h, ?_, fun host => ?_⟩
    · have := hi.scan
      rw [hnil, List.length_nil] at hlive
      omega
    · have := hi.host host
      have hle := hliveOn host
      rw [hnil, List.countP_nil] at hle
      omega
  · obtain ⟨h1, h2⟩ := hr host (by rw [hone]; exact List.mem_singleton_self _)
    refine ⟨permits_connStep hi.permits h, ?_, fun host' => ?_⟩
    · have hadd := live_add_idle hi.permits
      rw [hone, List.length_singleton] at hlive
      omega
    · have hle := hliveOn host'
      rw [hone, List.countP_singleton] at hle
      by_cases hh : host = host'
      · subst hh
        have hadd := live_add_idleOn hi.permits host
        simp only [beq_self_eq_true, if_true] at hle
        omega
      · have := hi.host host'
        simp only [beq_iff_eq, hh, if_false] at hle
        omega

end

/-- **The ceilings.** In every run that starts attempts only while there is
room, the connections open at any time are at most `global_concurrency`, and
`per_host_concurrency` on each host. -/
theorem connections_within (L : ValidLimits) (scope : ScopeProfile) (now : ℚ)
    (ls : List ConnAct) (s : State Conn)
    (hm : Meets (connStep L scope) (RoomForAttempt L) (init L now) ls)
    (hr : exec (connStep L scope) (init L now) ls = some s) :
    ((s.tasks.countP live : ℕ) : ℤ) ≤ L.globalConcurrency ∧
      ∀ host, ((s.tasks.countP (liveOn host) : ℕ) : ℤ) ≤ L.perHostConcurrency := by
  have hwithin := exec_inv_of_meets (fun _ _ _ => within_step) (within_init L now) hm hr
  have hg := L.globalConcurrency_pos
  have hh := L.perHostConcurrency_pos
  constructor
  · have hle := hwithin.scan
    unfold ValidLimits.globalPermits at hle
    omega
  · intro host
    have hle := hwithin.host host
    unfold ValidLimits.hostPermits at hle
    omega

/-! ### One permit -/

def onePermit : ValidLimits where
  globalConcurrency := 1
  perHostConcurrency := 1
  connectionsPerSecond := 2
  connectTimeout := 1
  perHostBudget := 2
  perScanBudget := 2
  valid := by decide +kernel

/-- Task `i` connects to the lab's host, from its call to its return. -/
def connectsTo (i : ℕ) : List ConnAct :=
  .connect labTarget labAddress 80 :: List.replicate 4 (.resume i) ++
    List.replicate 8 (.serve i (.calm []))

/-- The first connection is closed before the second is made. -/
def oneAtATime : List ConnAct := connectsTo 0 ++ [.close 0] ++ connectsTo 1

def labConnections (ls : List ConnAct) : Option (State Conn) :=
  exec (connStep onePermit labScope) (init onePermit 0) ls

/-- The state it ends in. -/
def afterOneAtATime : State Conn := (labConnections oneAtATime).get (by decide +kernel)

theorem connections_within_oneAtATime :
    ((afterOneAtATime.tasks.countP live : ℕ) : ℤ) ≤ 1 ∧
      ∀ host, ((afterOneAtATime.tasks.countP (liveOn host) : ℕ) : ℤ) ≤ 1 :=
  connections_within onePermit labScope 0 oneAtATime afterOneAtATime (by decide +kernel)
    (Option.some_get _).symm

/-- Two calls after another, neither of whose sockets is closed, hold more
connections than there are permits. -/
theorem not_connections_within : ¬ ∀ (L : ValidLimits) (scope : ScopeProfile) (now : ℚ)
    (ls : List ConnAct) (s : State Conn),
    exec (connStep L scope) (init L now) ls = some s →
      ((s.tasks.countP live : ℕ) : ℤ) ≤ L.globalConcurrency ∧
        ∀ host, ((s.tasks.countP (liveOn host) : ℕ) : ℤ) ≤ L.perHostConcurrency := by
  intro h
  have hsome : (labConnections (connectsTo 0 ++ connectsTo 1)).isSome = true := by decide +kernel
  have htwo : (labConnections (connectsTo 0 ++ connectsTo 1)).map
      (fun s => s.tasks.countP live) = some 2 := by decide +kernel
  obtain ⟨s, hs⟩ := Option.isSome_iff_exists.mp hsome
  have hle := (h onePermit labScope 0 _ s hs).1
  rw [hs, Option.map_some, Option.some.injEq] at htwo
  rw [htwo] at hle
  exact absurd hle (by decide)

end ScanLedger
