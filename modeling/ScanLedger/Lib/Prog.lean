/-
# Programs with effects and exceptions

A program returns, raises, or issues an operation and goes on with the answer,
which is a value or an exception thrown at that operation. Handlers and
`finally` clauses are those of a language with exceptions. What the operations
do is left open. A handler gives one run of a program on its own (`run`). A
protocol says how a program and an environment that other programs change may
deal with each other (`Obeys`); with any answer allowed it speaks of every
operation the program can issue (`Always`). A pool steps many programs in any
order, and what `Always` holds of its programs holds of all they do
(`pool_emitted`).

Key definitions: `Prog`, `Prog.tryCatch`, `Prog.tryFinally`, `Prog.run`,
`Prog.Obeys`, `Prog.Always`, `Prog.poolStep`.
Key theorems: `Prog.run_bind`, `Prog.run_tryCatch`, `Prog.run_tryFinally`,
`Prog.Obeys.bind`, `Prog.Obeys.run`, `Prog.Obeys.answer`, `Prog.pool_emitted`.
-/
import ScanLedger.Lib.Run

/-- Programs that raise `X` and issue the operations `O`, answered in `R`. -/
inductive Prog (X O : Type) (R : O → Type) (α : Type) : Type
  | ret (a : α)
  | raise (x : X)
  | op (o : O) (k : Except X (R o) → Prog X O R α)

namespace Prog

variable {X O : Type} {R : O → Type} {α β σ τ : Type}

def bind : Prog X O R α → (α → Prog X O R β) → Prog X O R β
  | ret a, f => f a
  | raise x, _ => raise x
  | op o k, f => op o fun r => (k r).bind f

instance : Monad (Prog X O R) where
  pure := ret
  bind := bind

/-- An operation whose exceptions are the program's. -/
def perform (o : O) : Prog X O R (R o) :=
  op o fun
    | .ok a => ret a
    | .error x => raise x

/-- An operation with its answer, exception or not, as the value. -/
def outcome (o : O) : Prog X O R (Except X (R o)) := op o ret

/-- `try: p except: handler`. -/
def tryCatch : Prog X O R α → (X → Prog X O R α) → Prog X O R α
  | ret a, _ => ret a
  | raise x, handler => handler x
  | op o k, handler => op o fun r => (k r).tryCatch handler

/-- `try: p finally: last`. An exception of the last part replaces the first. -/
def tryFinally : Prog X O R α → Prog X O R Unit → Prog X O R α
  | ret a, last => last.bind fun _ => ret a
  | raise x, last => last.bind fun _ => raise x
  | op o k, last => op o fun r => (k r).tryFinally last

@[simp] theorem pure_eq (a : α) : (pure a : Prog X O R α) = ret a := rfl
@[simp] theorem bind_eq (p : Prog X O R α) (f : α → Prog X O R β) : p >>= f = p.bind f := rfl
@[simp] theorem ret_bind (a : α) (f : α → Prog X O R β) : (ret a).bind f = f a := rfl
@[simp] theorem raise_bind (x : X) (f : α → Prog X O R β) : (raise x).bind f = raise x := rfl

/-! ### One run -/

/-- The run of a program whose operations `handle` carries out. -/
def run (handle : σ → (o : O) → Except X (R o) × σ) : σ → Prog X O R α → Except X α × σ
  | s, ret a => (.ok a, s)
  | s, raise x => (.error x, s)
  | s, op o k => run handle (handle s o).2 (k (handle s o).1)

section Run

variable (handle : σ → (o : O) → Except X (R o) × σ) (s : σ)

@[simp] theorem run_ret (a : α) : (ret a).run handle s = (.ok a, s) := rfl
@[simp] theorem run_raise (x : X) : (raise x : Prog X O R α).run handle s = (.error x, s) := rfl

theorem run_op (o : O) (k : Except X (R o) → Prog X O R α) :
    (op o k).run handle s = (k (handle s o).1).run handle (handle s o).2 := rfl

theorem run_bind : ∀ (p : Prog X O R α) (f : α → Prog X O R β) (s : σ),
    (p.bind f).run handle s = match p.run handle s with
      | (.ok a, s') => (f a).run handle s'
      | (.error x, s') => (.error x, s')
  | ret _, _, _ => rfl
  | raise _, _, _ => rfl
  | op _ k, f, _ => run_bind (k _) f _

theorem run_tryCatch : ∀ (p : Prog X O R α) (h : X → Prog X O R α) (s : σ),
    (p.tryCatch h).run handle s = match p.run handle s with
      | (.ok a, s') => (.ok a, s')
      | (.error x, s') => (h x).run handle s'
  | ret _, _, _ => rfl
  | raise _, _, _ => rfl
  | op _ k, h, _ => run_tryCatch (k _) h _

theorem run_tryFinally : ∀ (p : Prog X O R α) (last : Prog X O R Unit) (s : σ),
    (p.tryFinally last).run handle s = match last.run handle (p.run handle s).2 with
      | (.ok _, s') => ((p.run handle s).1, s')
      | (.error x, s') => (.error x, s')
  | ret _, last, s => by
    rw [tryFinally, run_bind, run_ret]
    rcases last.run handle s with ⟨_ | _, _⟩ <;> simp
  | raise _, last, s => by
    rw [tryFinally, run_bind, run_raise]
    rcases last.run handle s with ⟨_ | _, _⟩ <;> simp
  | op _ k, last, _ => run_tryFinally (k _) last _

theorem run_perform (o : O) : (perform o : Prog X O R (R o)).run handle s = handle s o := by
  rw [perform, run_op]
  rcases handle s o with ⟨_ | _, _⟩ <;> simp

end Run

/-! ### Protocols -/

/-- A protocol between a program and its environment, with a state of its own:
the operations the program may issue, and how they may be answered. -/
structure Protocol (X O : Type) (R : O → Type) (σ : Type) where
  pre : σ → O → Prop
  ans : σ → (o : O) → Except X (R o) → Prop
  next : σ → (o : O) → Except X (R o) → σ

/-- As long as it is answered by the protocol, the program issues what it may,
and returns with `Q` or raises with `E`. -/
inductive Obeys (K : Protocol X O R σ) (Q : α → σ → Prop) (E : X → σ → Prop) :
    σ → Prog X O R α → Prop
  | ret {s : σ} {a : α} (h : Q a s) : Obeys K Q E s (ret a)
  | raise {s : σ} {x : X} (h : E x s) : Obeys K Q E s (raise x)
  | op {s : σ} {o : O} {k : Except X (R o) → Prog X O R α} (h : K.pre s o)
      (hk : ∀ r, K.ans s o r → Obeys K Q E (K.next s o r) (k r)) : Obeys K Q E s (op o k)

namespace Obeys

variable {K : Protocol X O R σ} {Q Q₁ : α → σ → Prop} {Q' : β → σ → Prop} {E E₁ : X → σ → Prop}

theorem mono : ∀ {p : Prog X O R α} {s : σ}, p.Obeys K Q E s →
    (∀ a s, Q a s → Q₁ a s) → (∀ x s, E x s → E₁ x s) → p.Obeys K Q₁ E₁ s
  | _, _, .ret h, hQ, _ => .ret (hQ _ _ h)
  | _, _, .raise h, _, hE => .raise (hE _ _ h)
  | _, _, .op h hk, hQ, hE => .op h fun r hr => (hk r hr).mono hQ hE

theorem bind {f : α → Prog X O R β} : ∀ {p : Prog X O R α} {s : σ}, p.Obeys K Q E s →
    (∀ a s, Q a s → (f a).Obeys K Q' E s) → (p.bind f).Obeys K Q' E s
  | _, _, .ret h, hf => hf _ _ h
  | _, _, .raise h, _ => .raise h
  | _, _, .op h hk, hf => .op h fun r hr => (hk r hr).bind hf

theorem tryCatch {f : X → Prog X O R α} : ∀ {p : Prog X O R α} {s : σ}, p.Obeys K Q E s →
    (∀ x s, E x s → (f x).Obeys K Q E₁ s) → (p.tryCatch f).Obeys K Q E₁ s
  | _, _, .ret h, _ => .ret h
  | _, _, .raise h, hf => hf _ _ h
  | _, _, .op h hk, hf => .op h fun r hr => (hk r hr).tryCatch hf

theorem tryFinally {last : Prog X O R Unit} : ∀ {p : Prog X O R α} {s : σ}, p.Obeys K Q E s →
    (∀ a s, Q a s → last.Obeys K (fun _ s => Q₁ a s) E₁ s) →
    (∀ x s, E x s → last.Obeys K (fun _ s => E₁ x s) E₁ s) → (p.tryFinally last).Obeys K Q₁ E₁ s
  | _, _, .ret h, hQ, _ => (hQ _ _ h).bind fun _ _ h => .ret h
  | _, _, .raise h, _, hE => (hE _ _ h).bind fun _ _ h => .raise h
  | _, _, .op h hk, hQ, hE => .op h fun r hr => (hk r hr).tryFinally hQ hE

/-- A protocol that allows more and answers with less. -/
theorem imp {L : Protocol X O R σ} (hpre : ∀ s o, K.pre s o → L.pre s o)
    (hans : ∀ s o r, L.ans s o r → K.ans s o r) (hnext : ∀ s o r, L.next s o r = K.next s o r) :
    ∀ {p : Prog X O R α} {s : σ}, p.Obeys K Q E s → p.Obeys L Q E s
  | _, _, .ret h => .ret h
  | _, _, .raise h => .raise h
  | _, s, .op h hk => .op (hpre _ _ h) fun r hr =>
      hnext s _ r ▸ imp hpre hans hnext (hk r (hans _ _ _ hr))

/-- One operation, from what the protocol says of it. -/
theorem perform {s : σ} {o : O} {Q : R o → σ → Prop} (h : K.pre s o)
    (hok : ∀ a, K.ans s o (.ok a) → Q a (K.next s o (.ok a)))
    (herr : ∀ x, K.ans s o (.error x) → E x (K.next s o (.error x))) :
    (perform o : Prog X O R (R o)).Obeys K Q E s := by
  refine .op h fun r hr => ?_
  cases r with
  | ok a => exact .ret (hok a hr)
  | error x => exact .raise (herr x hr)

end Obeys

/-! ### One handler -/

/-- The protocol of a handler: whatever is asked, it answers as it does. -/
def ofHandler (handle : σ → (o : O) → Except X (R o) × σ) : Protocol X O R σ :=
  ⟨fun _ _ => True, fun s o r => r = (handle s o).1, fun s o _ => (handle s o).2⟩

section OfHandler

variable {handle : σ → (o : O) → Except X (R o) × σ} {s s' : σ}

/-- What a program that obeys a handler's protocol comes to in a run. -/
theorem Obeys.run {Q : α → σ → Prop} {E : X → σ → Prop} : ∀ {p : Prog X O R α} {s : σ},
    p.Obeys (ofHandler handle) Q E s → match p.run handle s with
      | (.ok a, s') => Q a s'
      | (.error x, s') => E x s'
  | _, _, .ret h => h
  | _, _, .raise h => h
  | _, _, .op _ hk => (hk _ rfl).run

/-- It returns, if it cannot raise. -/
theorem Obeys.run_ok {Q : α → σ → Prop} {p : Prog X O R α}
    (h : p.Obeys (ofHandler handle) Q (fun _ _ => False) s) :
    ∃ a s', p.run handle s = (.ok a, s') ∧ Q a s' := by
  have hrun := h.run
  rcases hp : p.run handle s with ⟨x | a, s'⟩
  · rw [hp] at hrun
    exact hrun.elim
  · rw [hp] at hrun
    exact ⟨a, s', rfl, hrun⟩

/-- It raises, if it cannot return. -/
theorem Obeys.run_error {E : X → σ → Prop} {p : Prog X O R α}
    (h : p.Obeys (ofHandler handle) (fun _ _ => False) E s) :
    ∃ x s', p.run handle s = (.error x, s') ∧ E x s' := by
  have hrun := h.run
  rcases hp : p.run handle s with ⟨x | a, s'⟩
  · rw [hp] at hrun
    exact ⟨x, s', rfl, hrun⟩
  · rw [hp] at hrun
    exact hrun.elim

/-- The same for a protocol without a state, which allows the handler's answers. -/
theorem Obeys.run_answered {K : Protocol X O R Unit} {Q : α → Unit → Prop} {E : X → Unit → Prop}
    (hans : ∀ s o, K.ans () o (handle s o).1) : ∀ {p : Prog X O R α} {s : σ},
    p.Obeys K Q E () → match p.run handle s with
      | (.ok a, _) => Q a ()
      | (.error x, _) => E x ()
  | _, _, .ret h => h
  | _, _, .raise h => h
  | _, s, .op _ hk => (hk _ (hans s _)).run_answered hans

theorem Obeys.perform_ok {o : O} {a : R o} {Q : R o → σ → Prop} {E : X → σ → Prop}
    (h : handle s o = (.ok a, s')) (hQ : Q a s') :
    (Prog.perform o : Prog X O R (R o)).Obeys (ofHandler handle) Q E s := by
  refine Obeys.perform trivial (fun b hb => ?_) fun x hx => ?_
  · have hb : Except.ok b = (handle s o).1 := hb
    rw [h] at hb
    cases hb
    change Q a (handle s o).2
    rw [h]
    exact hQ
  · have hx : Except.error x = (handle s o).1 := hx
    rw [h] at hx
    cases hx

theorem Obeys.outcome {o : O} {Q : Except X (R o) → σ → Prop} {E : X → σ → Prop}
    (hQ : Q (handle s o).1 (handle s o).2) :
    (Prog.outcome o : Prog X O R (Except X (R o))).Obeys (ofHandler handle) Q E s := by
  refine .op trivial fun r hr => ?_
  have hr : r = (handle s o).1 := hr
  subst hr
  exact .ret hQ

end OfHandler

/-! ### Every operation -/

/-- Any operation that satisfies `P`, answered in any way. -/
def anyAnswer (P : O → Prop) : Protocol X O R Unit :=
  ⟨fun _ => P, fun _ _ _ => True, fun _ _ _ => ()⟩

/-- Whatever the answers, each operation the program can issue satisfies `P`
and each value it can return satisfies `Q`. -/
def Always (P : O → Prop) (Q : α → Prop) (p : Prog X O R α) : Prop :=
  p.Obeys (anyAnswer P) (fun a _ => Q a) (fun _ _ => True) ()

namespace Always

variable {P P₁ : O → Prop} {Q Q₁ : α → Prop} {Q' : β → Prop}

theorem ret {a : α} (h : Q a) : (ret a : Prog X O R α).Always P Q := Obeys.ret h

theorem raise (x : X) : (raise x : Prog X O R α).Always P Q := Obeys.raise trivial

theorem perform {o : O} (h : P o) : (perform o : Prog X O R (R o)).Always P fun _ => True :=
  Obeys.perform h (fun _ _ => trivial) fun _ _ => trivial

theorem mono {p : Prog X O R α} (h : p.Always P Q) (hQ : ∀ a, Q a → Q₁ a) : p.Always P Q₁ :=
  Obeys.mono h (fun a _ => hQ a) fun _ _ h => h

theorem imp {p : Prog X O R α} (h : p.Always P Q) (hP : ∀ o, P o → P₁ o) : p.Always P₁ Q :=
  Obeys.imp (K := anyAnswer P) (L := anyAnswer P₁) (fun _ => hP) (fun _ _ _ h => h)
    (fun _ _ _ => rfl) h

theorem bind {p : Prog X O R α} {f : α → Prog X O R β} (h : p.Always P Q)
    (hf : ∀ a, Q a → (f a).Always P Q') : (p.bind f).Always P Q' :=
  Obeys.bind h fun a _ => hf a

theorem tryCatch {p : Prog X O R α} {f : X → Prog X O R α} (h : p.Always P Q)
    (hf : ∀ x, (f x).Always P Q) : (p.tryCatch f).Always P Q :=
  Obeys.tryCatch h fun x _ _ => hf x

theorem tryFinally {p : Prog X O R α} {last : Prog X O R Unit} (h : p.Always P Q)
    (hl : last.Always P fun _ => True) : (p.tryFinally last).Always P Q :=
  Obeys.tryFinally h (fun _ _ h => hl.mono fun _ _ => h) fun _ _ _ => hl

end Always

/-! ### Pools -/

/-- The operation a program waits to have answered. -/
def head : Prog X O R α → Option O
  | op o _ => some o
  | _ => none

/-- The program goes on with the answer to its operation. -/
def answer (r : (o : O) → Except X (R o)) : Prog X O R α → Prog X O R α
  | op o k => k (r o)
  | p => p

/-- A program is started, or one that runs has its operation answered. -/
inductive PoolAct (X O : Type) (R : O → Type) (τ : Type)
  | start (t : τ)
  | serve (i : ℕ) (r : (o : O) → Except X (R o))

variable (prog : τ → Prog X O R α)

/-- One step of a pool that runs the programs `prog t`, each with its tag. -/
def poolStep (pool : List (τ × Prog X O R α)) :
    PoolAct X O R τ → Option (List (τ × Prog X O R α))
  | .start t => some (pool ++ [(t, prog t)])
  | .serve i r => match pool[i]? with
    | none => none
    | some (t, p) => match p.head with
      | none => none
      | some _ => some (pool.set i (t, p.answer r))

/-- The operation a step answers, with the tag of its program. -/
def served (pool : List (τ × Prog X O R α)) : PoolAct X O R τ → List (τ × O)
  | .start _ => []
  | .serve i _ => match pool[i]? with
    | none => []
    | some (t, p) => p.head.toList.map fun o => (t, o)

/-- A program that obeys a protocol issues what it may, and goes on obeying it. -/
theorem Obeys.answer {K : Protocol X O R σ} {Q : α → σ → Prop} {E : X → σ → Prop} {s : σ} {o : O}
    {p : Prog X O R α} (h : p.Obeys K Q E s) (ho : p.head = some o) :
    K.pre s o ∧ ∀ r : (o : O) → Except X (R o), K.ans s o (r o) →
      (p.answer r).Obeys K Q E (K.next s o (r o)) := by
  cases h with
  | ret h => cases ho
  | raise h => cases ho
  | op h hk =>
    cases ho
    exact ⟨h, fun r hr => hk (r o) hr⟩

theorem poolStep_inv {P : τ → O → Prop} {Q : τ → α → Prop}
    (hP : ∀ t, (prog t).Always (P t) (Q t))
    {pool pool' : List (τ × Prog X O R α)} {a : PoolAct X O R τ}
    (hpool : ∀ q ∈ pool, q.2.Always (P q.1) (Q q.1)) (h : poolStep prog pool a = some pool') :
    (∀ e ∈ served pool a, P e.1 e.2) ∧ ∀ q ∈ pool', q.2.Always (P q.1) (Q q.1) := by
  cases a with
  | start t =>
    cases h
    refine ⟨nofun, fun q hq => ?_⟩
    rcases List.mem_append.mp hq with hq | hq
    · exact hpool q hq
    · rw [List.mem_singleton.mp hq]
      exact hP t
  | serve i r =>
    simp only [poolStep] at h
    split at h
    · cases h
    · rename_i t p hi
      have hp := hpool (t, p) (List.mem_of_getElem? hi)
      split at h
      · cases h
      · rename_i o ho
        cases h
        constructor
        · intro e he
          simp only [served, hi, ho, Option.toList_some, List.map_cons, List.map_nil,
            List.mem_singleton] at he
          subst he
          exact (Obeys.answer hp ho).1
        · intro q hq
          rcases List.mem_or_eq_of_mem_set hq with hq | rfl
          · exact hpool q hq
          · exact (Obeys.answer hp ho).2 r trivial

/-- **Pools.** What holds of every operation of each program holds of all that
a run of the pool does. -/
theorem pool_emitted {P : τ → O → Prop} {Q : τ → α → Prop}
    (hP : ∀ t, (prog t).Always (P t) (Q t))
    (ls : List (PoolAct X O R τ)) :
    ∀ e ∈ Run.emitted (poolStep prog) served [] ls, P e.1 e.2 :=
  Run.emitted_forall (I := fun pool => ∀ q ∈ pool, q.2.Always (P q.1) (Q q.1))
    (fun _ _ _ hpool h => (poolStep_inv prog hP hpool h).2)
    (fun _ _ _ hpool h => (poolStep_inv prog hP hpool h).1) (by simp)

end Prog
