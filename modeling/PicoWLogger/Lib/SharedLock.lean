import PicoWLogger.Lib.Machine
import Mathlib.Logic.Function.Basic

/-! Programs that share a resource behind a lock. A program is a tree over the answers of its environment: whether
the lock was got in time, and what each operation on the resource returned. The resource has a protocol, which
says in what state an operation may begin; programs that keep it whenever they hold the lock keep it together,
in every interleaving. -/

namespace SharedLock

inductive Program (Op : Type*) (Reply : Op → Type*) (α : Type*) where
  | done (value : α)
  | take (next : Bool → Program Op Reply α)
  | give (next : Program Op Reply α)
  | perform (op : Op) (next : Reply op → Program Op Reply α)

variable {Op : Type*} {Reply : Op → Type*} {α β σ : Type*}

namespace Program

def bind : Program Op Reply α → (α → Program Op Reply β) → Program Op Reply β
  | .done value, rest => rest value
  | .take next, rest => .take fun got => (next got).bind rest
  | .give next, rest => .give (next.bind rest)
  | .perform op next, rest => .perform op fun reply => (next reply).bind rest

/-- The program with an environment that answers takes and operations from a state of its own. -/
def run (take : σ → Bool × σ) (perform : σ → (op : Op) → Reply op × σ) : Program Op Reply α → σ → α × σ
  | .done value, world => (value, world)
  | .take next, world => (next (take world).1).run take perform (take world).2
  | .give next, world => next.run take perform world
  | .perform op next, world => (next (perform world op).1).run take perform (perform world op).2

@[simp] theorem run_bind (take : σ → Bool × σ) (perform : σ → (op : Op) → Reply op × σ) (program : Program Op Reply α)
    (rest : α → Program Op Reply β) (world : σ) :
    (program.bind rest).run take perform world =
      (rest (program.run take perform world).1).run take perform (program.run take perform world).2 := by
  induction program generalizing world with
  | done value => rfl
  | take next ih => exact ih _ _
  | give next ih => exact ih _
  | perform op next ih => exact ih _ _

end Program

/-- The states of the resource; `free` is the one in which the lock may be given back. -/
structure Protocol (Op : Type*) (Reply : Op → Type*) where
  State : Type
  free : State
  allowed : State → Op → Prop
  next : State → (op : Op) → Reply op → State

variable {protocol : Protocol Op Reply}

/-- The program keeps the protocol from the state of the resource on, if it holds the lock. -/
def Conforms (protocol : Protocol Op Reply) : Option protocol.State → Program Op Reply α → Prop
  | held, .done _ => held = none
  | held, .take next =>
    held = none ∧ Conforms protocol none (next false) ∧ Conforms protocol (some protocol.free) (next true)
  | held, .give next => held = some protocol.free ∧ Conforms protocol none next
  | held, .perform op next =>
    ∃ state, held = some state ∧ protocol.allowed state op ∧
      ∀ reply, Conforms protocol (some (protocol.next state op reply)) (next reply)

theorem Conforms.bind {held : Option protocol.State} {program : Program Op Reply α} {rest : α → Program Op Reply β}
    (first : Conforms protocol held program) (later : ∀ value, Conforms protocol none (rest value)) :
    Conforms protocol held (program.bind rest) := by
  induction program generalizing held with
  | done value =>
    cases first
    exact later value
  | take next ih => exact ⟨first.1, ih false first.2.1, ih true first.2.2⟩
  | give next ih => exact ⟨first.1, ih first.2⟩
  | perform op next ih =>
    obtain ⟨state, same, allowed, next⟩ := first
    exact ⟨state, same, allowed, fun reply => ih reply (next reply)⟩

/-- One operation between a take and a give. -/
theorem Conforms.guarded {op : Op} (allowed : protocol.allowed protocol.free op)
    (freed : ∀ reply, protocol.next protocol.free op reply = protocol.free)
    {timeout : Program Op Reply α} {rest : Reply op → Program Op Reply α} (late : Conforms protocol none timeout)
    (later : ∀ reply, Conforms protocol none (rest reply)) :
    Conforms protocol none
      (.take fun got => if got then .perform op fun reply => .give (rest reply) else timeout) := by
  refine ⟨rfl, late, _, rfl, allowed, fun reply => ⟨?_, later reply⟩⟩
  rw [freed]

section System
variable {ι : Type*} [DecidableEq ι]

/-- Tasks with one lock, one resource and a record of what was done to it. -/
structure System (ι : Type*) (Op : Type*) (Reply : Op → Type*) (α : Type*) where
  owner : Option ι
  program : ι → Program Op Reply α
  /-- Whether the operation that the task's program begins with has begun. -/
  inProgress : ι → Bool
  history : List (ι × (op : Op) × Reply op)

/-- An operation takes time: anything may happen to the other tasks between its beginning and its end. -/
inductive Action (ι : Type*) (Op : Type*) (Reply : Op → Type*) (α : Type*) where
  | call (task : ι) (program : Program Op Reply α)
  | take (task : ι)
  | timeout (task : ι)
  | give (task : ι)
  | begin (task : ι)
  | finish (task : ι) (answer : (op : Op) → Reply op)

namespace System

def proceed (s : System ι Op Reply α) (task : ι) (rest : Program Op Reply α) : System ι Op Reply α :=
  { s with program := Function.update s.program task rest }

/-- A lock that is given back is free, whoever gives it. -/
def step (s : System ι Op Reply α) : Action ι Op Reply α → Option (System ι Op Reply α)
  | .call task program =>
    match s.program task with
    | .done _ => some (s.proceed task program)
    | _ => none
  | .take task =>
    match s.program task, s.owner with
    | .take next, none => some { s.proceed task (next true) with owner := some task }
    | _, _ => none
  | .timeout task =>
    match s.program task with
    | .take next => some (s.proceed task (next false))
    | _ => none
  | .give task =>
    match s.program task with
    | .give next => some { s.proceed task next with owner := none }
    | _ => none
  | .begin task =>
    match s.program task, s.inProgress task with
    | .perform _ _, false => some { s with inProgress := Function.update s.inProgress task true }
    | _, _ => none
  | .finish task answer =>
    match s.program task, s.inProgress task with
    | .perform op next, true =>
      some { s.proceed task (next (answer op)) with
        inProgress := Function.update s.inProgress task false
        history := s.history ++ [(task, ⟨op, answer op⟩)] }
    | _, _ => none

/-- What the operations done so far make of the resource, each allowed when it was done; a task that
does not leave the resource free does the next operation too. -/
inductive Follows (protocol : Protocol Op Reply) : List (ι × (op : Op) × Reply op) → protocol.State → Prop where
  | start : Follows protocol [] protocol.free
  | perform {history state op} (before : Follows protocol history state) (allowed : protocol.allowed state op)
      (task : ι) (unbroken : state = protocol.free ∨ history.getLast?.map Prod.fst = some task) (reply : Reply op) :
      Follows protocol (history ++ [(task, ⟨op, reply⟩)]) (protocol.next state op reply)

omit [DecidableEq ι] in
theorem Follows.last {history : List (ι × (op : Op) × Reply op)} {task : ι} {op : Op} {reply : Reply op}
    {after : protocol.State} (follows : Follows protocol (history ++ [(task, ⟨op, reply⟩)]) after) :
    ∃ state, Follows protocol history state ∧ protocol.allowed state op ∧
      (state = protocol.free ∨ history.getLast?.map Prod.fst = some task) ∧ after = protocol.next state op reply := by
  generalize whole : history ++ [(task, ⟨op, reply⟩)] = log at follows
  cases follows with
  | start => exact absurd whole (List.append_ne_nil_of_right_ne_nil _ (List.cons_ne_nil _ _))
  | @perform before state op' past allowed task' unbroken reply' =>
    obtain ⟨rfl, same⟩ := List.append_inj' whole rfl
    cases same
    exact ⟨state, past, allowed, unbroken, rfl⟩

omit [DecidableEq ι] in
theorem Follows.front {history later : List (ι × (op : Op) × Reply op)} {after : protocol.State}
    (follows : Follows protocol (history ++ later) after) : ∃ state, Follows protocol history state := by
  induction later using List.reverseRecOn generalizing after with
  | nil => exact ⟨after, by simpa using follows⟩
  | append_singleton later entry ih =>
    rw [← List.append_assoc] at follows
    obtain ⟨task, op, reply⟩ := entry
    obtain ⟨state, before, -⟩ := follows.last
    exact ih before

def view (owner : Option ι) (state : σ) (task : ι) : Option σ := if owner = some task then some state else none

theorem view_owner (state : σ) (task : ι) : view (some task) state task = some state := if_pos rfl

theorem view_other {owner : Option ι} {task : ι} (other : owner ≠ some task) (state : σ) : view owner state task = none :=
  if_neg other

/-- The owner of the lock works on the resource, and the others are outside. -/
structure Guarded (protocol : Protocol Op Reply) (s : System ι Op Reply α) (state : protocol.State) : Prop where
  follows : Follows protocol s.history state
  free : s.owner = none → state = protocol.free
  /-- The last operation was the owner's, if it left the resource in use. -/
  last : state = protocol.free ∨ s.history.getLast?.map Prod.fst = s.owner
  programs : ∀ task, Conforms protocol (view s.owner state task) (s.program task)
  inProgress : ∀ task, s.inProgress task = true → ∃ op next, s.program task = .perform op next

structure Idle (s : System ι Op Reply α) : Prop where
  owner : s.owner = none
  program : ∀ task, ∃ value, s.program task = .done value
  inProgress : ∀ task, s.inProgress task = false
  history : s.history = []

variable {s t : System ι Op Reply α} {state : protocol.State}

theorem Idle.guarded (idle : s.Idle) (protocol : Protocol Op Reply) : s.Guarded protocol protocol.free where
  follows := by
    rw [idle.history]
    exact .start
  free := fun _ => rfl
  last := .inl rfl
  programs := fun task => by
    obtain ⟨value, finished⟩ := idle.program task
    rw [finished, idle.owner]
    rfl
  inProgress := fun task running => by
    rw [idle.inProgress task] at running
    cases running

/-- A task that waits for the lock, or is done, does not have it. -/
theorem Guarded.outside (guarded : s.Guarded protocol state) {task : ι}
    (outside : ∀ held, Conforms protocol held (s.program task) → held = none) : s.owner ≠ some task := by
  intro owns
  have none := outside _ (guarded.programs task)
  rw [owns, view_owner] at none
  cases none

/-- A task that gives the lock back has it, and left the resource as it found it. -/
theorem Guarded.owner_gives (guarded : s.Guarded protocol state) {task : ι} {next : Program Op Reply α}
    (gives : s.program task = .give next) : s.owner = some task ∧ state = protocol.free ∧ Conforms protocol none next := by
  obtain ⟨held, conforms⟩ := gives ▸ guarded.programs task
  by_cases owns : s.owner = some task
  · rw [owns, view_owner] at held
    exact ⟨owns, Option.some.inj held, conforms⟩
  · rw [view_other owns] at held
    cases held

theorem Guarded.owner_performs (guarded : s.Guarded protocol state) {task : ι} {op : Op}
    {next : Reply op → Program Op Reply α} (performs : s.program task = .perform op next) :
    s.owner = some task ∧ protocol.allowed state op ∧
      ∀ reply, Conforms protocol (some (protocol.next state op reply)) (next reply) := by
  obtain ⟨held, same, allowed, conforms⟩ := performs ▸ guarded.programs task
  by_cases owns : s.owner = some task
  · rw [owns, view_owner] at same
    cases same
    exact ⟨owns, allowed, conforms⟩
  · rw [view_other owns] at same
    cases same

/-- One task moves on, and the lock stays with it or away from the others. -/
theorem Guarded.moved (guarded : s.Guarded protocol state) {task : ι} {rest : Program Op Reply α} {owner : Option ι}
    {state' : protocol.State} (others : ∀ other, other ≠ task → view s.owner state other = view owner state' other)
    (self : Conforms protocol (view owner state' task) rest) (other : ι) :
    Conforms protocol (view owner state' other) (Function.update s.program task rest other) := by
  by_cases same : other = task
  · subst same
    rw [Function.update_self]
    exact self
  · rw [Function.update_of_ne same, ← others other same]
    exact guarded.programs other

theorem Guarded.stopped (guarded : s.Guarded protocol state) {task : ι} {rest : Program Op Reply α}
    (still : ∀ op next, s.program task ≠ .perform op next) (other : ι) (running : s.inProgress other = true) :
    ∃ op next, Function.update s.program task rest other = .perform op next := by
  obtain ⟨op, next, performs⟩ := guarded.inProgress other running
  have apart : other ≠ task := fun same => still op next (same ▸ performs)
  exact ⟨op, next, by rw [Function.update_of_ne apart, performs]⟩

/-- The tasks call programs that keep the protocol. -/
def Conforming (protocol : Protocol Op Reply) : System ι Op Reply α → Action ι Op Reply α → Prop
  | _, .call _ program => Conforms protocol none program
  | _, _ => True

namespace Guarded
variable (guarded : s.Guarded protocol state) {task : ι}
include guarded

theorem call {value : α} (stands : s.program task = .done value) {program : Program Op Reply α}
    (conforms : Conforms protocol none program) : (s.proceed task program).Guarded protocol state := by
  have outside : s.owner ≠ some task := guarded.outside fun held => stands ▸ id
  have self : Conforms protocol (view s.owner state task) program := by
    rw [view_other outside]
    exact conforms
  exact ⟨guarded.follows, guarded.free, guarded.last, guarded.moved (fun _ _ => rfl) self,
    guarded.stopped fun op next same => by rw [stands] at same; cases same⟩

theorem take {next : Bool → Program Op Reply α} (stands : s.program task = .take next) (free : s.owner = none) :
    Guarded protocol { s.proceed task (next true) with owner := some task } state := by
  obtain ⟨-, -, got⟩ := stands ▸ guarded.programs task
  have others : ∀ other, other ≠ task → view s.owner state other = view (some task) state other := by
    intro other apart
    rw [free, view_other (Option.some_ne_none other).symm, view_other fun same => apart (Option.some.inj same).symm]
  have self : Conforms protocol (view (some task) state task) (next true) := by
    rw [view_owner, guarded.free free]
    exact got
  exact ⟨guarded.follows, fun none => (Option.some_ne_none task none).elim, .inl (guarded.free free),
    guarded.moved others self, guarded.stopped fun op next same => by rw [stands] at same; cases same⟩

theorem timeout {next : Bool → Program Op Reply α} (stands : s.program task = .take next) :
    (s.proceed task (next false)).Guarded protocol state := by
  obtain ⟨outside, late, -⟩ := stands ▸ guarded.programs task
  have self : Conforms protocol (view s.owner state task) (next false) := by
    rw [outside]
    exact late
  exact ⟨guarded.follows, guarded.free, guarded.last, guarded.moved (fun _ _ => rfl) self,
    guarded.stopped fun op next same => by rw [stands] at same; cases same⟩

theorem give {next : Program Op Reply α} (stands : s.program task = .give next) :
    Guarded protocol { s.proceed task next with owner := none } state := by
  obtain ⟨owns, left, later⟩ := guarded.owner_gives stands
  have others : ∀ other, other ≠ task → view s.owner state other = view none state other := by
    intro other apart
    rw [owns, view_other (Option.some_ne_none other).symm, view_other fun same => apart (Option.some.inj same).symm]
  have self : Conforms protocol (view none state task) next := by
    rw [view_other (Option.some_ne_none task).symm]
    exact later
  exact ⟨guarded.follows, fun _ => left, .inl left, guarded.moved others self,
    guarded.stopped fun op next same => by rw [stands] at same; cases same⟩

theorem begin {op : Op} {next : Reply op → Program Op Reply α} (stands : s.program task = .perform op next) :
    Guarded protocol { s with inProgress := Function.update s.inProgress task true } state := by
  refine ⟨guarded.follows, guarded.free, guarded.last, guarded.programs, fun other running => ?_⟩
  change Function.update s.inProgress task true other = true at running
  by_cases same : other = task
  · subst same
    exact ⟨op, next, stands⟩
  · rw [Function.update_of_ne same] at running
    exact guarded.inProgress other running

theorem finish {op : Op} {next : Reply op → Program Op Reply α} (stands : s.program task = .perform op next)
    (reply : Reply op) :
    Guarded protocol
      { s.proceed task (next reply) with
        inProgress := Function.update s.inProgress task false
        history := s.history ++ [(task, ⟨op, reply⟩)] }
      (protocol.next state op reply) := by
  obtain ⟨owns, allowed, later⟩ := guarded.owner_performs stands
  have others : ∀ other, other ≠ task → view s.owner state other = view s.owner (protocol.next state op reply) other := by
    intro other apart
    have outside : s.owner ≠ some other := by
      rw [owns]
      exact fun same => apart (Option.some.inj same).symm
    rw [view_other outside, view_other outside]
  have self : Conforms protocol (view s.owner (protocol.next state op reply) task) (next reply) := by
    rw [owns, view_owner]
    exact later reply
  have unbroken : state = protocol.free ∨ s.history.getLast?.map Prod.fst = some task := owns ▸ guarded.last
  refine ⟨guarded.follows.perform allowed task unbroken reply, fun none => ?_, .inr ?_, guarded.moved others self,
    fun other running => ?_⟩
  · exact absurd (owns.symm.trans none) (Option.some_ne_none task)
  · exact (congrArg (Option.map Prod.fst) List.getLast?_concat).trans owns.symm
  · change Function.update s.inProgress task false other = true at running
    by_cases same : other = task
    · subst same
      rw [Function.update_self] at running
      cases running
    · rw [Function.update_of_ne same] at running
      obtain ⟨op, next, performs⟩ := guarded.inProgress other running
      exact ⟨op, next, (Function.update_of_ne same _ _).trans performs⟩

theorem step {action : Action ι Op Reply α} (conforming : Conforming protocol s action) (taken : s.step action = some t) :
    ∃ state', t.Guarded protocol state' := by
  cases action with
  | call task program =>
    cases stands : s.program task with
    | done value =>
      simp only [System.step, stands] at taken
      cases taken
      exact ⟨state, guarded.call stands conforming⟩
    | _ => simp [System.step, stands] at taken
  | take task =>
    cases stands : s.program task with
    | take next =>
      cases free : s.owner with
      | some _ => simp [System.step, stands, free] at taken
      | none =>
        simp only [System.step, stands, free] at taken
        cases taken
        exact ⟨state, guarded.take stands free⟩
    | _ => simp [System.step, stands] at taken
  | timeout task =>
    cases stands : s.program task with
    | take next =>
      simp only [System.step, stands] at taken
      cases taken
      exact ⟨state, guarded.timeout stands⟩
    | _ => simp [System.step, stands] at taken
  | give task =>
    cases stands : s.program task with
    | give next =>
      simp only [System.step, stands] at taken
      cases taken
      exact ⟨state, guarded.give stands⟩
    | _ => simp [System.step, stands] at taken
  | begin task =>
    cases stands : s.program task with
    | perform op next =>
      cases still : s.inProgress task with
      | true => simp [System.step, stands, still] at taken
      | false =>
        simp only [System.step, stands, still] at taken
        cases taken
        exact ⟨state, guarded.begin stands⟩
    | _ => simp [System.step, stands] at taken
  | finish task answer =>
    cases stands : s.program task with
    | perform op next =>
      cases running : s.inProgress task with
      | false => simp [System.step, stands, running] at taken
      | true =>
        simp only [System.step, stands, running] at taken
        cases taken
        exact ⟨_, guarded.finish stands (answer op)⟩
    | _ => simp [System.step, stands] at taken

end Guarded

/-- Programs that keep the protocol each on their own keep it together: at any moment at most one operation is going on,
by the owner of the lock and allowed by what was done before it, and a task that has returned left the lock. -/
theorem Guarded.exclusive (guarded : s.Guarded protocol state) :
    (∀ task, s.inProgress task = true → s.owner = some task ∧
      ∃ op next, s.program task = .perform op next ∧ protocol.allowed state op) ∧
    ∀ task value, s.program task = .done value → s.owner ≠ some task := by
  refine ⟨fun task running => ?_, fun task value stands => guarded.outside fun held => stands ▸ id⟩
  obtain ⟨op, next, performs⟩ := guarded.inProgress task running
  obtain ⟨owns, allowed, -⟩ := guarded.owner_performs performs
  exact ⟨owns, op, next, performs, allowed⟩

theorem reach_guarded {first : System ι Op Reply α} {ok : System ι Op Reply α → Action ι Op Reply α → Prop}
    (idle : first.Idle) (conforming : ∀ {s action}, ok s action → Conforming protocol s action)
    (reached : Machine.Reach System.step ok first s) : ∃ state, s.Guarded protocol state :=
  reached.invariant (fun s => ∃ state, s.Guarded protocol state) ⟨_, idle.guarded protocol⟩
    fun ⟨_, guarded⟩ met taken => guarded.step (conforming met) taken

end System
end System

end SharedLock
