import DatenLord.Dist.Tasks
import Mathlib.Data.List.GetD

/-!
# The acceptor thread and the tasks it spawns

`CacheServer::new` binds a listener and runs one loop on a thread of its own. A
connection whose peer IP is the server's own is the shutdown channel: its one request
is read on the acceptor thread, a `TurnOff` is answered and the thread returns `true`,
and any other request panics. Every other connection is handed to a detached task
running `dispatch`, which the loop never waits on or looks at again, so a peer's
`TurnOff` changes nothing for the loop.

The tasks run beside the loop and beside each other, ordered only by the maps' locks:
they are the tasks of `Tasks`. A running server is the loop and room for `n` tasks, and
the loop fills the next slot with each task it spawns; between any two connections any
spawned task may take its next step. A slot not yet filled holds a task that has not
started and so holds no lock, and filling it changes no step of the others. So every
interleaving of the loop with its tasks leaves the loop where the connections alone take
it, and the tasks as the task model leaves them, started with every request the loop has
handed over, after the same steps: they serialize. Addresses are compared and nothing
else, so the IP type is a parameter.
-/
namespace DatenLord.Dist

variable {IpAddr : Type} [DecidableEq IpAddr]

/-- An accepted connection: the peer's IP and the one request it sends. -/
structure Connection (IpAddr : Type) where
  peerIp : IpAddr
  request : DistRequest

/-- Where the acceptor thread is: in its loop, returned after answering a local
`TurnOff`, or ended by the panic on another local request. Each carries the requests of
the tasks the loop has spawned, in the order it spawned them. -/
inductive Acceptor where
  | accepting (spawned : List DistRequest)
  | returned (spawned : List DistRequest)
  | panicked (spawned : List DistRequest)

/-- The requests of the tasks the loop has spawned. -/
def Acceptor.spawned : Acceptor → List DistRequest
  | .accepting spawned | .returned spawned | .panicked spawned => spawned

/-- One turn of the loop of a server bound to `ipAddr`: a peer's connection goes to a
task of its own. A thread that has ended accepts nothing. -/
def accept (ipAddr : IpAddr) : Acceptor → Connection IpAddr → Acceptor
  | .accepting spawned, c =>
    if c.peerIp = ipAddr then
      match c.request with
      | .TurnOff => .returned spawned
      | _ => .panicked spawned
    else .accepting (spawned ++ [c.request])
  | s, _ => s

/-- The loop over the connections in the order it accepts them. -/
def acceptAll (ipAddr : IpAddr) : Acceptor → List (Connection IpAddr) → Acceptor
  | s, [] => s
  | s, c :: cs => acceptAll ipAddr (accept ipAddr s c) cs

section Spec

variable (ipAddr : IpAddr) {spawned : List DistRequest}

theorem accept_remote {c : Connection IpAddr} (hc : c.peerIp ≠ ipAddr) :
    accept ipAddr (.accepting spawned) c = .accepting (spawned ++ [c.request]) := by
  simp [accept, hc]

@[simp] theorem accept_turnOff :
    accept ipAddr (.accepting spawned) ⟨ipAddr, .TurnOff⟩ = .returned spawned := by
  simp [accept]

theorem accept_local_of_ne {req : DistRequest} (h : req ≠ .TurnOff) :
    accept ipAddr (.accepting spawned) ⟨ipAddr, req⟩ = .panicked spawned := by
  cases req <;> simp_all [accept]

/-- A thread that has returned accepts nothing more. -/
@[simp] theorem acceptAll_returned (cs : List (Connection IpAddr)) :
    acceptAll ipAddr (.returned spawned) cs = .returned spawned := by
  induction cs <;> simp_all [acceptAll, accept]

/-- A thread that has panicked accepts nothing more. -/
@[simp] theorem acceptAll_panicked (cs : List (Connection IpAddr)) :
    acceptAll ipAddr (.panicked spawned) cs = .panicked spawned := by
  induction cs <;> simp_all [acceptAll, accept]

theorem acceptAll_append (a : Acceptor) (cs cs' : List (Connection IpAddr)) :
    acceptAll ipAddr a (cs ++ cs') = acceptAll ipAddr (acceptAll ipAddr a cs) cs' := by
  induction cs generalizing a with
  | nil => rfl
  | cons c cs ih => exact ih _

/-- The loop only ever adds tasks. -/
theorem accept_spawned (a : Acceptor) (c : Connection IpAddr) :
    ∃ l, (accept ipAddr a c).spawned = a.spawned ++ l := by
  cases a with
  | accepting spawned =>
    by_cases hc : c.peerIp = ipAddr
    · refine ⟨[], ?_⟩
      cases h : c.request <;> simp [accept, hc, h, Acceptor.spawned]
    · exact ⟨[c.request], by simp [accept, hc, Acceptor.spawned]⟩
  | returned spawned | panicked spawned => exact ⟨[], by simp [accept, Acceptor.spawned]⟩

/-- Peers' connections keep the loop going whatever they send, `TurnOff` included, each
handed to a task of its own. -/
theorem acceptAll_remote_append {cs : List (Connection IpAddr)}
    (hcs : ∀ x ∈ cs, x.peerIp ≠ ipAddr) (rest : List (Connection IpAddr)) :
    acceptAll ipAddr (.accepting spawned) (cs ++ rest) =
      acceptAll ipAddr (.accepting (spawned ++ cs.map Connection.request)) rest := by
  induction cs generalizing spawned with
  | nil => simp
  | cons c cs ih =>
    rw [List.forall_mem_cons] at hcs
    rw [List.cons_append, acceptAll, accept_remote ipAddr hcs.1, ih hcs.2]
    simp

example : acceptAll 1 (.accepting []) [⟨2, .TurnOff⟩] = .accepting [.TurnOff] := rfl

/-- The acceptor returns only through the shutdown channel: exactly when the first of
its connections to come from its own IP carries `TurnOff`. By then it has handed every
connection before that one to a task of its own, in the order it accepted them. -/
theorem acceptAll_eq_returned {conns : List (Connection IpAddr)} {spawned' : List DistRequest} :
    acceptAll ipAddr (.accepting spawned) conns = .returned spawned' ↔
      ∃ cs rest, conns = cs ++ ⟨ipAddr, .TurnOff⟩ :: rest ∧ (∀ x ∈ cs, x.peerIp ≠ ipAddr) ∧
        spawned' = spawned ++ cs.map Connection.request := by
  constructor
  · intro h
    cases hf : conns.find? (fun c => c.peerIp = ipAddr) with
    | none =>
      have hall : ∀ x ∈ conns, x.peerIp ≠ ipAddr := by simpa using List.find?_eq_none.1 hf
      rw [← List.append_nil conns, acceptAll_remote_append ipAddr hall] at h
      cases h
    | some c =>
      obtain ⟨hc, cs, rest, rfl, hcs⟩ := List.find?_eq_some.1 hf
      obtain ⟨peer, req⟩ := c
      obtain rfl : ipAddr = peer := by simpa [eq_comm] using hc
      have hcs' : ∀ x ∈ cs, x.peerIp ≠ ipAddr := by simpa using hcs
      rw [acceptAll_remote_append ipAddr hcs', acceptAll] at h
      by_cases hreq : req = .TurnOff
      · subst hreq
        rw [accept_turnOff, acceptAll_returned] at h
        exact ⟨cs, rest, rfl, hcs', (Acceptor.returned.inj h).symm⟩
      · rw [accept_local_of_ne ipAddr hreq, acceptAll_panicked] at h
        cases h
  · rintro ⟨cs, rest, rfl, hcs, rfl⟩
    rw [acceptAll_remote_append ipAddr hcs, acceptAll, accept_turnOff, acceptAll_returned]

end Spec

namespace Tasks

variable {n : Nat} {s s' : Tasks n} {i j : Fin n} {r : Fin n → DistRequest}
  {sched : List (Fin n)}

theorem step_stage_of_ne (h : s.step i = some s') (hj : j ≠ i) : s'.stage j = s.stage j := by
  obtain ⟨st, meta, -, rfl⟩ := step_eq_some h
  exact setStage_of_ne st hj

theorem mem_of_mem_commitLog (h : i ∈ s.commitLog sched) : i ∈ sched := by
  induction sched generalizing s with
  | nil => cases h
  | cons k sched ih =>
    simp only [commitLog] at h
    split at h
    · exact .tail _ (ih h)
    · rcases List.mem_append.1 h with h | h
      · split at h
        · cases h
        · exact (List.mem_singleton.1 h) ▸ .head _
      · exact .tail _ (ih h)

/-- A task that has not started holds no lock, so which request it will run is nothing to
the others: a step of another task is the same whatever it is. -/
theorem step_withRequest (hr : ∀ j, s.request j ≠ r j → j ≠ i ∧ s.stage j = .start) :
    ({ s with request := r } : Tasks n).step i = (s.step i).map fun s' => { s' with request := r } := by
  have hi : r i = s.request i := by
    by_contra h
    exact (hr i (Ne.symm h)).1 rfl
  have hfree : ∀ (holds : Stage → Bool) (mode : DistRequest → LockMode) (m : LockMode),
      holds .start = false →
      ((∀ j, j ≠ i → holds (s.stage j) = true → m = .read ∧ mode (r j) = .read) ↔
        ∀ j, j ≠ i → holds (s.stage j) = true → m = .read ∧ mode (s.request j) = .read) := by
    intro holds mode m hstart
    refine forall_congr' fun j => imp_congr_right fun _ => imp_congr_right fun hh => ?_
    by_cases hj : s.request j = r j
    · rw [hj]
    · rw [(hr j hj).2, hstart] at hh
      cases hh
  have hpath : ∀ m, ({ s with request := r } : Tasks n).PathFree i m ↔ s.PathFree i m :=
    fun m => hfree Stage.holdsPath DistRequest.pathMode m rfl
  have hcache : ∀ m, ({ s with request := r } : Tasks n).CacheFree i m ↔ s.CacheFree i m :=
    fun m => hfree Stage.holdsCache DistRequest.cacheMode m rfl
  unfold step
  simp only [hi, hpath, hcache]
  split <;> (try split) <;> (try split) <;> (try split) <;> rfl

/-- Slots that are never picked and have not started can be given other requests at any
point of a run. -/
theorem run_withRequest (hr : ∀ j, s.request j ≠ r j → j ∉ sched ∧ s.stage j = .start) :
    ({ s with request := r } : Tasks n).run sched = { s.run sched with request := r } := by
  induction sched generalizing s with
  | nil => rfl
  | cons i sched ih =>
    have hstep := step_withRequest (i := i) fun j hj =>
      ⟨fun e => (hr j hj).1 (e ▸ .head _), (hr j hj).2⟩
    have hrest : ∀ j, s.request j ≠ r j → j ∉ sched := fun j hj hm => (hr j hj).1 (.tail _ hm)
    cases h : s.step i with
    | none =>
      simp only [Tasks.run, hstep, h, Option.map_none', Option.getD_none]
      exact ih fun j hj => ⟨hrest j hj, (hr j hj).2⟩
    | some s' =>
      simp only [Tasks.run, hstep, h, Option.map_some', Option.getD_some]
      apply ih
      intro j hj
      rw [step_request h] at hj
      have hji : j ≠ i := fun e => (hr j hj).1 (e ▸ .head _)
      exact ⟨hrest j hj, (step_stage_of_ne h hji).trans (hr j hj).2⟩

end Tasks

/-- The slots of a server with room for `n` tasks: the task the loop spawned `i`-th in
slot `i`, and a `TurnOff` that never runs in a slot not yet filled. -/
def slots {n : Nat} (spawned : List DistRequest) (i : Fin n) : DistRequest :=
  spawned.getD i .TurnOff

/-- What happens next on a server: its loop accepts a connection, or the task in slot
`i` runs to its next await point. -/
inductive Event (IpAddr : Type) where
  | accept (c : Connection IpAddr)
  | task (i : Nat)

/-- The connections among the events, in the order the loop accepts them. -/
def connections : List (Event IpAddr) → List (Connection IpAddr)
  | [] => []
  | .accept c :: evs => c :: connections evs
  | .task _ :: evs => connections evs

/-- A running `CacheServer` with room for `n` peer tasks: its acceptor thread, and the
maps with the tasks in their slots. -/
structure CacheServer (IpAddr : Type) (n : Nat) where
  acceptor : Acceptor
  tasks : Tasks n

namespace CacheServer

variable {n : Nat}

/-- `CacheServer::new` over the maps `meta₀`: the loop accepting, no task spawned. -/
def init (meta₀ : S3MetaData) : CacheServer IpAddr n :=
  ⟨.accepting [], Tasks.init meta₀ (slots [])⟩

/-- One event. A connection goes to the loop, and a peer's fills the next slot; a task
steps once it has been spawned, unless it waits on a lock. -/
def step (ipAddr : IpAddr) (σ : CacheServer IpAddr n) : Event IpAddr → CacheServer IpAddr n
  | .accept c =>
    let a := accept ipAddr σ.acceptor c
    ⟨a, { σ.tasks with request := slots a.spawned }⟩
  | .task i =>
    if h : i < n ∧ i < σ.acceptor.spawned.length then
      ⟨σ.acceptor, (σ.tasks.step ⟨i, h.1⟩).getD σ.tasks⟩
    else σ

/-- The events in the order they happen. -/
def run (ipAddr : IpAddr) (σ : CacheServer IpAddr n) : List (Event IpAddr) → CacheServer IpAddr n
  | [] => σ
  | e :: evs => (σ.step ipAddr e).run ipAddr evs

/-- A server that has accepted `conns` and whose tasks have taken the steps `sched`: the
loop is where those connections take it, and the tasks are the task model's, started
with every request handed over, after those steps, each of a task already spawned. -/
structure Runs (ipAddr : IpAddr) (meta₀ : S3MetaData) (conns : List (Connection IpAddr))
    (sched : List (Fin n)) (σ : CacheServer IpAddr n) : Prop where
  acceptor_eq : σ.acceptor = acceptAll ipAddr (.accepting []) conns
  sched_lt : ∀ i ∈ sched, i.val < σ.acceptor.spawned.length
  tasks_eq : σ.tasks = (Tasks.init meta₀ (slots σ.acceptor.spawned)).run sched

variable {ipAddr : IpAddr} {meta₀ : S3MetaData} {conns : List (Connection IpAddr)}
  {sched : List (Fin n)} {σ : CacheServer IpAddr n}

theorem runs_init (ipAddr : IpAddr) (meta₀ : S3MetaData) :
    (init meta₀ : CacheServer IpAddr n).Runs ipAddr meta₀ [] [] :=
  ⟨rfl, nofun, rfl⟩

/-- Spawning a task fills a slot no step has picked. -/
theorem Runs.step_accept (h : σ.Runs ipAddr meta₀ conns sched) (c : Connection IpAddr) :
    (σ.step ipAddr (.accept c)).Runs ipAddr meta₀ (conns ++ [c]) sched := by
  obtain ⟨l, hl⟩ := accept_spawned ipAddr σ.acceptor c
  have hslots : ∀ j : Fin n, slots σ.acceptor.spawned j ≠
      slots (accept ipAddr σ.acceptor c).spawned j → j ∉ sched := fun j hj hm => by
    rw [hl, slots, slots, List.getD_append _ _ _ _ (h.sched_lt j hm)] at hj
    exact hj rfl
  refine ⟨by rw [acceptAll_append, ← h.acceptor_eq]; rfl, fun i hi => ?_, ?_⟩
  · show i.val < (accept ipAddr σ.acceptor c).spawned.length
    rw [hl, List.length_append]
    exact Nat.lt_add_right _ (h.sched_lt i hi)
  · show ({ σ.tasks with request := slots (accept ipAddr σ.acceptor c).spawned } : Tasks n) =
      (Tasks.init meta₀ (slots (accept ipAddr σ.acceptor c).spawned)).run sched
    rw [h.tasks_eq, ← Tasks.run_withRequest fun j hj => ⟨hslots j hj, rfl⟩]
    rfl

/-- A step of a spawned task is a step of the task model. -/
theorem Runs.step_task (h : σ.Runs ipAddr meta₀ conns sched) (i : Nat) :
    ∃ sched', (σ.step ipAddr (.task i)).Runs ipAddr meta₀ conns sched' := by
  by_cases hi : i < n ∧ i < σ.acceptor.spawned.length
  · refine ⟨sched ++ [⟨i, hi.1⟩], ?_⟩
    simp only [step, dif_pos hi]
    refine ⟨h.acceptor_eq, fun k hk => ?_, ?_⟩
    · rcases List.mem_append.1 hk with hk | hk
      · exact h.sched_lt k hk
      · rw [List.mem_singleton.1 hk]; exact hi.2
    · rw [Tasks.run_append, ← h.tasks_eq]; rfl
  · exact ⟨sched, by simpa only [step, dif_neg hi] using h⟩

theorem Runs.run_events (h : σ.Runs ipAddr meta₀ conns sched) (evs : List (Event IpAddr)) :
    ∃ sched', (σ.run ipAddr evs).Runs ipAddr meta₀ (conns ++ connections evs) sched' := by
  induction evs generalizing σ conns sched with
  | nil => exact ⟨sched, by simpa [connections] using h⟩
  | cons e evs ih =>
    cases e with
    | accept c =>
      obtain ⟨sched', h'⟩ := ih (h.step_accept c)
      exact ⟨sched', by simpa [run, connections] using h'⟩
    | task i =>
      obtain ⟨sched₁, h₁⟩ := h.step_task i
      obtain ⟨sched', h'⟩ := ih h₁
      exact ⟨sched', by simpa [run, connections] using h'⟩

end CacheServer

end DatenLord.Dist
