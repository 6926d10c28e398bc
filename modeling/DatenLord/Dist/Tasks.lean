import DatenLord.Dist.Commute
import Mathlib.Algebra.Order.BigOperators.Group.Finset
import Mathlib.Data.Fin.VecNotation
import Mathlib.Data.Finset.Max
import Mathlib.Data.List.FinRange

/-!
# Peer tasks under the maps' locks

The server runs each peer connection as a task of its own, and the tasks interleave.
What orders them is the two `RwLock`s of `S3MetaData`. Every metadata handler takes the
`path2inum` lock first (for writing in `update_dir`, for reading otherwise) and keeps it
to its end, reply included. It looks its key up under that lock and, only if the key
resolves, takes the `cache` lock (for writing in the three handlers that mutate, for
reading in `load_dir` and `get_attr`), does its work, and drops the cache lock before
the path lock. `turnoff` and `get_inode_num` take no lock.

A task is modelled at its await points, the lock acquisitions: what it does between two
of them touches only maps it has locked, so it is one step here. A task drops the cache
lock before it replies; `load_dir` and `get_attr` write their reply still holding the
cache read guard, and dropping it first only lets a writer in sooner, so every
interleaving of the code is one of the model. Over every schedule the
locks exclude each other as an `RwLock` does, a key resolved under the path lock still
resolves so when the cache lock is taken, and the tasks past their commit point are
linearizable: served atomically in commit order, they give every task its reply and
leave the maps as they are. No schedule deadlocks, and every task can be run to its end.
-/
namespace DatenLord.Dist

/-- How a handler holds an `RwLock`. -/
inductive LockMode where
  | read
  | write
  deriving DecidableEq

/-- How each handler starts: the mode in which it takes the `path2inum` lock, the key it
looks up under it, and its reply when the key is missing; `none` for the two handlers
that take no lock. -/
def DistRequest.pathLock : DistRequest → Option (LockMode × String × DistResponse)
  | .LoadDir path => some (.read, path, .LoadDir none)
  | .UpdateDir args => some (.write, args.parentPath, .UpdateDir)
  | .RemoveDirEntry args => some (.read, args.parentPath, .UpdateDir)
  | .GetFileAttr path => some (.read, path, .GetAttr none)
  | .PushFileAttr path _ => some (.read, path, .PushAttr)
  | .TurnOff | .GetInodeNum => none

/-- The mode in which a handler holds the `path2inum` lock. -/
def DistRequest.pathMode (req : DistRequest) : LockMode :=
  match req.pathLock with
  | some (m, _, _) => m
  | none => .read

/-- The mode in which each handler takes the `cache` lock once its key resolves: for
writing in the three that mutate a node. -/
def DistRequest.cacheMode : DistRequest → LockMode
  | .UpdateDir _ | .RemoveDirEntry _ | .PushFileAttr _ _ => .write
  | _ => .read

/-- The rest of each handler, run under the `cache` lock once its key has resolved to
`inum` under the path lock: the reply and the maps left, `none` where it panics. The two
handlers that take no lock run whole. -/
def underCache (meta : S3MetaData) (inum : INum) :
    DistRequest → Option (DistResponse × S3MetaData)
  | .LoadDir _ =>
    match meta.cache inum with
    | none => some (.LoadDir none, meta)
    | some node => (fun dir => (.LoadDir (some dir), meta)) <$> node.getDirData
  | .UpdateDir args =>
    match meta.cache inum with
    | none => some (.UpdateDir, meta)
    | some parentNode =>
      let childNode :=
        parentNode.newChildNodeOfParent args.childName args.childAttr args.targetPath
      let childIno := childNode.getIno
      let entry : DirEntry := ⟨childIno, args.childName, childNode.getType⟩
      (parentNode.modifyDirData (Function.update · args.childName (some entry))).map
        fun parentNode =>
          (.UpdateDir,
            { meta with
              path2inum := Function.update meta.path2inum childNode.fullPath (some childIno)
              cache := Function.update (Function.update meta.cache inum (some parentNode))
                childIno (some childNode) })
  | .RemoveDirEntry args =>
    match meta.cache inum with
    | none => some (.UpdateDir, meta)
    | some parentNode =>
      (parentNode.modifyDirData (Function.update · args.childName none)).map fun parentNode =>
        (.UpdateDir, { meta with cache := Function.update meta.cache inum (some parentNode) })
  | .GetFileAttr _ =>
    match meta.cache inum with
    | none => some (.GetAttr none, meta)
    | some node => some (.GetAttr (some node.getAttr), meta)
  | .PushFileAttr _ attr =>
    match meta.cache inum with
    | none => some (.PushAttr, meta)
    | some node =>
      some (.PushAttr, { meta with
        cache := Function.update meta.cache inum
          (some (node.setAttr { attr with ino := node.getAttr.ino })) })
  | .TurnOff => some (.TurnOff, meta)
  | .GetInodeNum => some (.InodeNum meta.curInum, meta)

/-- A handler run whole is its lookup under the path lock followed by the rest under the
cache lock. -/
theorem dispatch_eq_underCache {req : DistRequest} {m : LockMode} {key : String}
    {r : DistResponse} (h : req.pathLock = some (m, key, r)) (meta : S3MetaData) :
    (dispatch meta req).map (fun p => p.2) =
      match meta.path2inum key with
      | none => some (r, meta)
      | some inum => underCache meta inum req := by
  cases hk : meta.path2inum key with
  | none =>
    cases req <;> simp only [DistRequest.pathLock, reduceCtorEq, Option.some.injEq,
      Prod.mk.injEq] at h <;> obtain ⟨rfl, rfl, rfl⟩ := h <;>
      simp [dispatch, loadDir, updateDir, removeDirEntry, getAttr, pushAttr, hk]
  | some inum =>
    cases hc : meta.cache inum <;> cases req <;> simp only [DistRequest.pathLock, reduceCtorEq,
      Option.some.injEq, Prod.mk.injEq] at h <;> obtain ⟨rfl, rfl, rfl⟩ := h <;>
      simp [dispatch, loadDir, updateDir, removeDirEntry, getAttr, pushAttr, underCache, hk, hc] <;>
      rfl

/-- Where a task is in its handler, and so what it holds. -/
inductive Stage where
  /-- Not yet past its first await: holds nothing. -/
  | start
  /-- Holds the path lock; its key resolved to `inum`. -/
  | resolved (inum : INum)
  /-- Holds both locks, its work done, with `reply` to send. -/
  | cached (reply : DistResponse)
  /-- Holds the path lock alone, sending `reply`. -/
  | replying (reply : DistResponse)
  /-- Ended: replied, or panicked (`none`) with its guards dropped. -/
  | done (reply : Option DistResponse)

namespace Stage

def holdsPath : Stage → Bool
  | .resolved _ | .cached _ | .replying _ => true
  | _ => false

def holdsCache : Stage → Bool
  | .cached _ => true
  | _ => false

/-- The reply of a task past its commit point (`none` inside for a panic); `none` before
it. -/
def reply? : Stage → Option (Option DistResponse)
  | .start | .resolved _ => none
  | .cached r | .replying r => some (some r)
  | .done r => some r

def isDone : Stage → Bool
  | .done _ => true
  | _ => false

/-- Steps left to the end, at most four. -/
def rank : Stage → Nat
  | .start => 4
  | .resolved _ => 3
  | .cached _ => 2
  | .replying _ => 1
  | .done _ => 0

end Stage

/-- The maps and `n` peer tasks, each with its request and its stage. -/
structure Tasks (n : Nat) where
  meta : S3MetaData
  request : Fin n → DistRequest
  stage : Fin n → Stage

namespace Tasks

variable {n : Nat}

/-- `n` tasks not yet started over the maps `meta`. -/
def init (meta : S3MetaData) (request : Fin n → DistRequest) : Tasks n :=
  ⟨meta, request, fun _ => .start⟩

/-- Task `i` may take the path lock in mode `m`: every other holder reads, and so does
`i`. -/
def PathFree (s : Tasks n) (i : Fin n) (m : LockMode) : Prop :=
  ∀ j, j ≠ i → (s.stage j).holdsPath = true → m = .read ∧ (s.request j).pathMode = .read

/-- Task `i` may take the cache lock in mode `m`. -/
def CacheFree (s : Tasks n) (i : Fin n) (m : LockMode) : Prop :=
  ∀ j, j ≠ i → (s.stage j).holdsCache = true → m = .read ∧ (s.request j).cacheMode = .read

instance (s : Tasks n) (i : Fin n) (m : LockMode) : Decidable (s.PathFree i m) :=
  Fintype.decidableForallFintype

instance (s : Tasks n) (i : Fin n) (m : LockMode) : Decidable (s.CacheFree i m) :=
  Fintype.decidableForallFintype

/-- Task `i` moved to stage `st`. -/
def setStage (s : Tasks n) (i : Fin n) (st : Stage) : Tasks n :=
  { s with stage := Function.update s.stage i st }

/-- Task `i` runs to its next await point; `none` while it waits for a lock, and once it
has ended. -/
def step (s : Tasks n) (i : Fin n) : Option (Tasks n) :=
  match s.stage i with
  | .start =>
    match (s.request i).pathLock with
    | none => some (s.setStage i (.done ((dispatch s.meta (s.request i)).map fun p => p.2.1)))
    | some (m, key, r) =>
      if s.PathFree i m then
        match s.meta.path2inum key with
        | none => some (s.setStage i (.replying r))
        | some inum => some (s.setStage i (.resolved inum))
      else none
  | .resolved inum =>
    if s.CacheFree i (s.request i).cacheMode then
      match underCache s.meta inum (s.request i) with
      | none => some (s.setStage i (.done none))
      | some (r, meta) => some { s.setStage i (.cached r) with meta := meta }
    else none
  | .cached r => some (s.setStage i (.replying r))
  | .replying r => some (s.setStage i (.done (some r)))
  | .done _ => none

/-- The tasks stepped in the order `sched` picks them; a pick that cannot step changes
nothing. -/
def run (s : Tasks n) : List (Fin n) → Tasks n
  | [] => s
  | i :: sched => run ((s.step i).getD s) sched

/-- The tasks a schedule takes past their commit point, in the order it takes them: a task
commits at the step that fixes its reply. -/
def commitLog (s : Tasks n) : List (Fin n) → List (Fin n)
  | [] => []
  | i :: sched =>
    match s.step i with
    | none => s.commitLog sched
    | some s' =>
      (if (s'.stage i).reply?.isSome = (s.stage i).reply?.isSome then [] else [i]) ++
        s'.commitLog sched

end Tasks

/-- Requests served atomically one after another: each one's reply (`none` where it
panics), and the maps left. -/
def serve (meta : S3MetaData) : List DistRequest → List (Option DistResponse) × S3MetaData
  | [] => ([], meta)
  | req :: reqs =>
    let rest := serve (dispatchState meta req) reqs
    ((dispatch meta req).map (fun p => p.2.1) :: rest.1, rest.2)

/-- `log` holds the tasks past their commit point, each once, and served atomically from
`meta₀` in its order they give each task its reply and leave the maps as they are. -/
structure Tasks.Serializes {n : Nat} (meta₀ : S3MetaData) (log : List (Fin n)) (s : Tasks n) :
    Prop where
  nodup : log.Nodup
  mem : ∀ i, i ∈ log ↔ (s.stage i).reply?.isSome
  serve_eq : serve meta₀ (log.map s.request) =
    (log.map fun i => ((s.stage i).reply?).getD none, s.meta)

/-- What every reachable state of the tasks keeps: the locks exclude each other as an
`RwLock` does, a key resolved under the path lock still resolves so, and the tasks
serialize in the order `log` they committed in. -/
structure Tasks.Inv {n : Nat} (meta₀ : S3MetaData) (log : List (Fin n)) (s : Tasks n) :
    Prop where
  path_shared : ∀ i j, i ≠ j → (s.stage i).holdsPath = true →
    (s.stage j).holdsPath = true → (s.request i).pathMode = .read
  cache_shared : ∀ i j, i ≠ j → (s.stage i).holdsCache = true →
    (s.stage j).holdsCache = true → (s.request i).cacheMode = .read
  resolved_key : ∀ i inum, s.stage i = .resolved inum →
    ∃ m key r, (s.request i).pathLock = some (m, key, r) ∧ s.meta.path2inum key = some inum
  serializes : s.Serializes meta₀ log

namespace Tasks

variable {n : Nat} {s s' : Tasks n} {i j : Fin n}

@[simp] theorem init_request (meta : S3MetaData) (request : Fin n → DistRequest) :
    (init meta request).request = request := rfl

@[simp] theorem init_stage (meta : S3MetaData) (request : Fin n → DistRequest) :
    (init meta request).stage i = .start := rfl

@[simp] theorem setStage_meta (st : Stage) : (s.setStage i st).meta = s.meta := rfl

@[simp] theorem setStage_request (st : Stage) : (s.setStage i st).request = s.request := rfl

@[simp] theorem setStage_self (st : Stage) : (s.setStage i st).stage i = st :=
  Function.update_same _ _ _

theorem setStage_of_ne (st : Stage) (h : j ≠ i) : (s.setStage i st).stage j = s.stage j :=
  Function.update_noteq h _ _

/-- The moves of task `i`: the stage it goes to and the maps it leaves. -/
inductive Move (s : Tasks n) (i : Fin n) : Stage → S3MetaData → Prop
  /-- `turnoff` and `get_inode_num`, run whole without a lock. -/
  | whole : s.stage i = .start → (s.request i).pathLock = none →
      Move s i (.done ((dispatch s.meta (s.request i)).map fun p => p.2.1)) s.meta
  /-- The path lock taken and the key missing: the reply for it. -/
  | missing {m key r} : s.stage i = .start → (s.request i).pathLock = some (m, key, r) →
      s.PathFree i m → s.meta.path2inum key = none → Move s i (.replying r) s.meta
  /-- The path lock taken and the key resolved. -/
  | resolve {m key r inum} : s.stage i = .start → (s.request i).pathLock = some (m, key, r) →
      s.PathFree i m → s.meta.path2inum key = some inum → Move s i (.resolved inum) s.meta
  /-- The cache lock taken and the handler's work panicking. -/
  | panic {inum} : s.stage i = .resolved inum → s.CacheFree i (s.request i).cacheMode →
      underCache s.meta inum (s.request i) = none → Move s i (.done none) s.meta
  /-- The cache lock taken and the handler's work done. -/
  | work {inum r meta} : s.stage i = .resolved inum → s.CacheFree i (s.request i).cacheMode →
      underCache s.meta inum (s.request i) = some (r, meta) → Move s i (.cached r) meta
  /-- The cache lock dropped. -/
  | release {r} : s.stage i = .cached r → Move s i (.replying r) s.meta
  /-- The reply sent and the path lock dropped. -/
  | reply {r} : s.stage i = .replying r → Move s i (.done (some r)) s.meta

/-- Every step is a move of the task stepped, which leaves the other tasks as they were. -/
theorem step_eq_some (h : s.step i = some s') :
    ∃ st meta, Move s i st meta ∧ s' = { s.setStage i st with meta := meta } := by
  unfold step at h
  split at h
  · rename_i hs
    split at h
    · cases h; exact ⟨_, _, .whole hs ‹_›, rfl⟩
    · split at h
      · split at h <;> cases h
        · exact ⟨_, _, .missing hs ‹_› ‹_› ‹_›, rfl⟩
        · exact ⟨_, _, .resolve hs ‹_› ‹_› ‹_›, rfl⟩
      · cases h
  · rename_i hs
    split at h
    · split at h <;> cases h
      · exact ⟨_, _, .panic hs ‹_› ‹_›, rfl⟩
      · exact ⟨_, _, .work hs ‹_› ‹_›, rfl⟩
    · cases h
  · cases h; exact ⟨_, _, .release ‹_›, rfl⟩
  · cases h; exact ⟨_, _, .reply ‹_›, rfl⟩
  · cases h

end Tasks

theorem serve_snd (meta : S3MetaData) (reqs : List DistRequest) :
    (serve meta reqs).2 = dispatchAll meta reqs := by
  induction reqs generalizing meta with
  | nil => rfl
  | cons req reqs ih => exact ih _

theorem serve_append_singleton (meta : S3MetaData) (reqs : List DistRequest) (req : DistRequest) :
    serve meta (reqs ++ [req]) =
      ((serve meta reqs).1 ++ [(dispatch (serve meta reqs).2 req).map fun p => p.2.1],
        dispatchState (serve meta reqs).2 req) := by
  induction reqs generalizing meta with
  | nil => rfl
  | cons r reqs ih => rw [List.cons_append, serve, serve, ih]; rfl

/-- What one atomic request answers and leaves, read off its reply and maps. -/
theorem dispatch_commit {meta : S3MetaData} {req : DistRequest}
    {o : Option (DistResponse × S3MetaData)} (h : (dispatch meta req).map (fun p => p.2) = o) :
    (dispatch meta req).map (fun p => p.2.1) = o.map (fun p => p.1) ∧
      dispatchState meta req = (o.map fun p => p.2).getD meta := by
  subst h
  unfold dispatchState
  cases dispatch meta req <;> exact ⟨rfl, rfl⟩

/-- The two handlers that take no lock leave the maps alone. -/
theorem dispatchState_of_pathLock {req : DistRequest} (h : req.pathLock = none)
    (meta : S3MetaData) : dispatchState meta req = meta := by
  cases req <;> simp_all [DistRequest.pathLock]

/-- A handler that reads the path index under its lock leaves it as it was. -/
theorem underCache_path2inum {meta meta' : S3MetaData} {inum : INum} {req : DistRequest}
    {r : DistResponse} (h : underCache meta inum req = some (r, meta'))
    (hm : req.pathMode = .read) : meta'.path2inum = meta.path2inum := by
  cases req with
  | UpdateDir => cases hm
  | _ =>
    simp only [underCache] at h
    (try split at h) <;> simp only [Functor.map, Option.map_eq_some', Option.some.injEq,
      Prod.mk.injEq] at h <;> aesop

namespace Tasks

variable {n : Nat} {s s' : Tasks n} {i j : Fin n} {st : Stage} {meta meta₀ : S3MetaData}
  {log : List (Fin n)}

theorem pathMode_of_pathLock {req : DistRequest} {m : LockMode} {key : String}
    {r : DistResponse} (h : req.pathLock = some (m, key, r)) : req.pathMode = m := by
  simp [DistRequest.pathMode, h]

/-- A task comes to hold the path lock only by keeping it, or by taking it when every
other holder, and the task itself, only reads. -/
theorem Move.holdsPath (hm : Move s i st meta) (h : st.holdsPath = true) :
    (s.stage i).holdsPath = true ∨ ∀ j, j ≠ i → (s.stage j).holdsPath = true →
      (s.request i).pathMode = .read ∧ (s.request j).pathMode = .read := by
  cases hm with
  | missing _ hl hf _ | resolve _ hl hf _ => exact .inr (pathMode_of_pathLock hl ▸ hf)
  | work hs _ _ | release hs => rw [hs]; exact .inl rfl
  | whole _ _ | panic _ _ _ | reply _ => cases h

/-- A task comes to hold the cache lock only by taking it. -/
theorem Move.holdsCache (hm : Move s i st meta) (h : st.holdsCache = true) :
    s.CacheFree i (s.request i).cacheMode := by
  cases hm with
  | work _ hf _ => exact hf
  | _ => cases h

/-- A move that commits nothing keeps the task's reply and the maps. -/
theorem Move.reply?_of_uncommitted (hm : Move s i st meta)
    (h : st.reply?.isSome = (s.stage i).reply?.isSome) :
    st.reply? = (s.stage i).reply? ∧ meta = s.meta := by
  cases hm with
  | resolve hs _ _ _ => rw [hs]; exact ⟨rfl, rfl⟩
  | release hs | reply hs => rw [hs]; exact ⟨rfl, rfl⟩
  | whole hs _ | missing hs _ _ _ | panic hs _ _ | work hs _ _ => rw [hs] at h; cases h

/-- A move that commits gives the task the reply its request has when served atomically
now, and leaves what that leaves. -/
theorem Move.commit (hi : s.Inv meta₀ log) (hm : Move s i st meta)
    (h : st.reply?.isSome ≠ (s.stage i).reply?.isSome) :
    (s.stage i).reply? = none ∧
      st.reply? = some ((dispatch s.meta (s.request i)).map fun p => p.2.1) ∧
      meta = dispatchState s.meta (s.request i) := by
  cases hm with
  | whole hs hl =>
    rw [hs, dispatchState_of_pathLock hl]
    exact ⟨rfl, rfl, rfl⟩
  | missing hs hl _ hk =>
    have := dispatch_commit ((dispatch_eq_underCache hl s.meta).trans (by rw [hk]))
    rw [hs, this.1, this.2]
    exact ⟨rfl, rfl, rfl⟩
  | panic hs _ hu | work hs _ hu =>
    obtain ⟨m, key, r, hl, hk⟩ := hi.resolved_key i _ hs
    have hd := dispatch_eq_underCache hl s.meta
    simp only [hk, hu] at hd
    have := dispatch_commit hd
    rw [hs, this.1, this.2]
    exact ⟨rfl, rfl, rfl⟩
  | resolve hs _ _ _ | release hs | reply hs => rw [hs] at h; exact absurd rfl h

/-- Only `resolve` leaves a task resolved, on the inode its key maps to. -/
theorem Move.resolved_key {inum : INum} (hm : Move s i st meta) (h : st = .resolved inum) :
    ∃ m key r, (s.request i).pathLock = some (m, key, r) ∧ meta.path2inum key = some inum := by
  cases hm with
  | resolve _ hl _ hk => cases h; exact ⟨_, _, _, hl, hk⟩
  | _ => cases h

/-- While another task holds the path lock, no move changes the path index: only
`update_dir` writes it, and it holds the lock for writing. -/
theorem Move.path2inum_eq (hi : s.Inv meta₀ log) (hm : Move s i st meta) (hj : j ≠ i)
    (hh : (s.stage j).holdsPath = true) : meta.path2inum = s.meta.path2inum := by
  cases hm with
  | work hs _ hu =>
    exact underCache_path2inum hu (hi.path_shared i j (Ne.symm hj) (by rw [hs]; rfl) hh)
  | _ => rfl

/-- Readers–writer exclusion survives a change of holders in which task `i` keeps what it
held, or takes the lock when every other holder, and `i` itself, only reads. -/
theorem shared_of_update {holds holds' : Fin n → Bool} {mode : Fin n → LockMode}
    (hshared : ∀ a b, a ≠ b → holds a = true → holds b = true → mode a = .read)
    (hother : ∀ j, j ≠ i → holds' j = holds j)
    (htake : holds' i = true → holds i = true ∨
      ∀ j, j ≠ i → holds j = true → mode i = .read ∧ mode j = .read) :
    ∀ a b, a ≠ b → holds' a = true → holds' b = true → mode a = .read := by
  intro a b hab ha hb
  by_cases hai : a = i
  · subst hai
    rw [hother b (Ne.symm hab)] at hb
    rcases htake ha with h | h
    · exact hshared a b hab h hb
    · exact (h b (Ne.symm hab) hb).1
  · rw [hother a hai] at ha
    by_cases hbi : b = i
    · subst hbi
      rcases htake hb with h | h
      · exact hshared a b hab ha h
      · exact (h a hai ha).2
    · exact hshared a b hab ha (hother b hbi ▸ hb)

theorem Inv.init (meta₀ : S3MetaData) (request : Fin n → DistRequest) :
    (init meta₀ request).Inv meta₀ [] where
  path_shared _ _ _ h := by cases h
  cache_shared _ _ _ h := by cases h
  resolved_key _ _ h := by cases h
  serializes := ⟨List.nodup_nil, fun _ => by simp [Stage.reply?], rfl⟩

/-- A move that commits nothing keeps the log; one that commits puts its task last,
served atomically on the maps as they are. -/
theorem Inv.serializes_move (hi : s.Inv meta₀ log) (hm : Move s i st meta) :
    Serializes meta₀ (log ++ if st.reply?.isSome = (s.stage i).reply?.isSome then [] else [i])
      { s.setStage i st with meta := meta } := by
  obtain ⟨hnd, hmem, hserve⟩ := hi.serializes
  by_cases hc : st.reply?.isSome = (s.stage i).reply?.isSome
  · rw [if_pos hc, List.append_nil]
    obtain ⟨hr, rfl⟩ := hm.reply?_of_uncommitted hc
    have hr' : ∀ j, ((s.setStage i st).stage j).reply? = (s.stage j).reply? := by
      intro j
      by_cases hj : j = i
      · subst hj; simpa using hr
      · rw [setStage_of_ne _ hj]
    exact ⟨hnd, fun j => by simpa [hr'] using hmem j, by simpa [hr'] using hserve⟩
  · rw [if_neg hc]
    obtain ⟨hnone, hsome, rfl⟩ := hm.commit hi hc
    have hnot : i ∉ log := by simp [hmem, hnone]
    refine ⟨hnd.append (List.nodup_singleton i) (List.disjoint_singleton.2 hnot),
      fun j => ?_, ?_⟩
    · by_cases hj : j = i
      · subst hj; simp [hsome]
      · simp [setStage_of_ne _ hj, hj, hmem]
    · have hkeep : log.map (fun j => ((s.setStage i st).stage j).reply?.getD none) =
          log.map fun j => (s.stage j).reply?.getD none :=
        List.map_congr_left fun j hj => by
          rw [setStage_of_ne _ (ne_of_mem_of_not_mem hj hnot)]
      simp only [List.map_append, List.map_singleton, serve_append_singleton, setStage_request,
        hserve, hkeep, setStage_self, hsome, Option.getD_some]

/-- The invariant is kept by every move. -/
theorem Inv.move (hi : s.Inv meta₀ log) (hm : Move s i st meta) :
    Tasks.Inv meta₀ (log ++ if st.reply?.isSome = (s.stage i).reply?.isSome then [] else [i])
      { s.setStage i st with meta := meta } where
  path_shared := shared_of_update (i := i) hi.path_shared
    (fun _ hj => by simp [setStage_of_ne _ hj])
    (fun h => by simpa using hm.holdsPath (by simpa using h))
  cache_shared := shared_of_update (i := i) hi.cache_shared
    (fun _ hj => by simp [setStage_of_ne _ hj])
    (fun h => .inr (hm.holdsCache (by simpa using h)))
  resolved_key j inum hj := by
    by_cases hji : j = i
    · subst hji
      exact hm.resolved_key (by simpa using hj)
    · simp only [setStage_of_ne _ hji] at hj
      obtain ⟨m, key, r, hl, hk⟩ := hi.resolved_key j inum hj
      refine ⟨m, key, r, hl, ?_⟩
      rw [hm.path2inum_eq hi hji (by rw [hj]; rfl)]
      exact hk
  serializes := hi.serializes_move hm

theorem Inv.step (hi : s.Inv meta₀ log) (h : s.step i = some s') :
    s'.Inv meta₀ (log ++ if (s'.stage i).reply?.isSome = (s.stage i).reply?.isSome then []
      else [i]) := by
  obtain ⟨st, meta, hm, rfl⟩ := step_eq_some h
  simpa only [setStage_self] using hi.move hm

theorem step_request (h : s.step i = some s') : s'.request = s.request := by
  obtain ⟨st, meta, hm, rfl⟩ := step_eq_some h
  rfl

theorem Inv.run (hi : s.Inv meta₀ log) (sched : List (Fin n)) :
    (s.run sched).Inv meta₀ (log ++ s.commitLog sched) := by
  induction sched generalizing s log with
  | nil => simpa [Tasks.run, commitLog] using hi
  | cons i sched ih =>
    cases h : s.step i with
    | none => simpa [Tasks.run, commitLog, h] using ih hi
    | some s' => simpa [Tasks.run, commitLog, h] using ih (hi.step h)

@[simp] theorem run_request (s : Tasks n) (sched : List (Fin n)) :
    (s.run sched).request = s.request := by
  induction sched generalizing s with
  | nil => rfl
  | cons i sched ih =>
    cases h : s.step i with
    | none => simpa [Tasks.run, h] using ih s
    | some s' => simpa [Tasks.run, h, step_request h] using ih s'

theorem Stage.holdsPath_rank {st : Stage} (h : st.holdsPath = true) :
    st.isDone = false ∧ st.rank < 4 := by
  cases st <;> simp_all [Stage.holdsPath, Stage.isDone, Stage.rank]

theorem Stage.holdsCache_rank {st : Stage} (h : st.holdsCache = true) :
    st.isDone = false ∧ st.rank < 3 := by
  cases st <;> simp_all [Stage.holdsCache, Stage.isDone, Stage.rank]

/-- A task that has not ended steps unless the lock it waits on is held against it. -/
theorem step_isSome_of_free (hd : (s.stage i).isDone = false)
    (hp : s.stage i = .start →
      ∀ m key r, (s.request i).pathLock = some (m, key, r) → s.PathFree i m)
    (hc : ∀ inum, s.stage i = .resolved inum → s.CacheFree i (s.request i).cacheMode) :
    (s.step i).isSome := by
  cases hs : s.stage i with
  | start =>
    simp only [step, hs]
    split
    · rfl
    · rw [if_pos (hp hs _ _ _ ‹_›)]; split <;> rfl
  | resolved inum =>
    simp only [step, hs, if_pos (hc inum hs)]
    split <;> rfl
  | cached r | replying r => simp [step, hs]
  | done r => simp [hs, Stage.isDone] at hd

/-- The task furthest along among those not ended can always step: a task waits only on a
lock held by a task further along than itself. -/
theorem step_isSome_of_min (hd : (s.stage i).isDone = false)
    (hmin : ∀ j, (s.stage j).isDone = false → (s.stage i).rank ≤ (s.stage j).rank) :
    (s.step i).isSome :=
  step_isSome_of_free hd
    (fun hs _ _ _ _ j _ hj => by
      have h := Stage.holdsPath_rank hj
      exact absurd (hmin j h.1) (by rw [hs]; exact Nat.not_le.2 h.2))
    (fun _ hs j _ hj => by
      have h := Stage.holdsCache_rank hj
      exact absurd (hmin j h.1) (by rw [hs]; exact Nat.not_le.2 h.2))

/-- No schedule deadlocks: while some task has not ended, some task can step. -/
theorem exists_step (h : ∃ i, (s.stage i).isDone = false) : ∃ i s', s.step i = some s' := by
  obtain ⟨i, hi⟩ := h
  obtain ⟨k, hk, hmin⟩ := (Finset.univ.filter fun j => (s.stage j).isDone = false)
    |>.exists_min_image (fun j => (s.stage j).rank) ⟨i, by simpa using hi⟩
  simp only [Finset.mem_filter, Finset.mem_univ, true_and] at hk hmin
  exact ⟨k, Option.isSome_iff_exists.1 (step_isSome_of_min hk hmin)⟩

/-- The steps the tasks have left. -/
def rank (s : Tasks n) : Nat := ∑ i, (s.stage i).rank

theorem Move.rank_lt (hm : Move s i st meta) : st.rank < (s.stage i).rank := by
  cases hm with
  | whole hs _ | missing hs _ _ _ | resolve hs _ _ _ | panic hs _ _ | work hs _ _
  | release hs | reply hs => simp [hs, Stage.rank]

theorem rank_step (h : s.step i = some s') : s'.rank < s.rank := by
  obtain ⟨st, meta, hm, rfl⟩ := step_eq_some h
  apply Finset.sum_lt_sum
  · intro j _
    by_cases hj : j = i
    · subst hj; simpa using hm.rank_lt.le
    · simp [setStage_of_ne _ hj]
  · exact ⟨i, Finset.mem_univ _, by simpa using hm.rank_lt⟩

theorem rank_le (s : Tasks n) : s.rank ≤ 4 * n := by
  calc s.rank ≤ ∑ _i : Fin n, 4 := Finset.sum_le_sum fun i _ => by
        cases s.stage i <;> simp [Stage.rank]
    _ = 4 * n := by simp [mul_comm]

/-- From every state some schedule, no longer than the steps left, runs every task to its
end. -/
theorem exists_run_done (s : Tasks n) :
    ∃ sched : List (Fin n), sched.length ≤ s.rank ∧
      ∀ i, ((s.run sched).stage i).isDone = true := by
  obtain ⟨k, hr⟩ : ∃ k, s.rank = k := ⟨_, rfl⟩
  induction k using Nat.strong_induction_on generalizing s with
  | _ k ih =>
    by_cases h : ∃ i, (s.stage i).isDone = false
    · obtain ⟨i, s', hs⟩ := exists_step h
      have hlt := rank_step hs
      obtain ⟨sched, hl, hd⟩ := ih _ (hr ▸ hlt) s' rfl
      exact ⟨i :: sched, by simp only [List.length_cons]; omega,
        by simpa [Tasks.run, hs] using hd⟩
    · exact ⟨[], Nat.zero_le _, fun i => by simpa using (not_exists.1 h) i⟩

theorem step_eq_none_of_isDone (h : (s.stage i).isDone = true) : s.step i = none := by
  cases hs : s.stage i <;> simp only [hs, Stage.isDone, reduceCtorEq] at h
  simp [step, hs]

theorem run_of_isDone (h : ∀ i, (s.stage i).isDone = true) (sched : List (Fin n)) :
    s.run sched = s := by
  induction sched with
  | nil => rfl
  | cons i sched ih => simpa [Tasks.run, step_eq_none_of_isDone (h i)] using ih

theorem run_append (s : Tasks n) (l₁ l₂ : List (Fin n)) :
    s.run (l₁ ++ l₂) = (s.run l₁).run l₂ := by
  induction l₁ generalizing s with
  | nil => rfl
  | cons i l ih => exact ih _

/-- Along a schedule the steps left only fall, and stay put only if no pick could step. -/
theorem run_rank (s : Tasks n) (r : List (Fin n)) :
    (s.run r).rank < s.rank ∨ (s.run r = s ∧ ∀ i ∈ r, s.step i = none) := by
  induction r generalizing s with
  | nil => exact .inr ⟨rfl, fun _ h => nomatch h⟩
  | cons i r ih =>
    cases h : s.step i with
    | none => simpa [Tasks.run, h] using ih s
    | some s' =>
      refine .inl ?_
      simp only [Tasks.run, h, Option.getD_some]
      rcases ih s' with hr | ⟨hr, -⟩
      · exact hr.trans (rank_step h)
      · rw [hr]; exact rank_step h

/-- A round that polls every task lowers the steps left, unless every task has ended. -/
theorem rank_round_lt (hne : ∃ i, (s.stage i).isDone = false) {r : List (Fin n)}
    (hr : ∀ i, i ∈ r) : (s.run r).rank < s.rank := by
  obtain ⟨k, s', hk⟩ := exists_step hne
  rcases run_rank s r with h | ⟨-, h⟩
  · exact h
  · rw [h k (hr k)] at hk; cases hk

theorem Stage.rank_pos {st : Stage} (h : st.isDone = false) : 0 < st.rank := by
  cases st <;> simp_all [Stage.isDone, Stage.rank]

/-- As many rounds polling every task as there are steps left run every task to its end. -/
theorem run_rounds (s : Tasks n) (rounds : List (List (Fin n)))
    (hfair : ∀ r ∈ rounds, ∀ i, i ∈ r) (hlen : s.rank ≤ rounds.length) :
    ∀ i, ((s.run rounds.flatten).stage i).isDone = true := by
  induction rounds generalizing s with
  | nil =>
    intro i
    show (s.stage i).isDone = true
    cases hi : (s.stage i).isDone
    · have hle : (s.stage i).rank ≤ s.rank :=
        Finset.single_le_sum (f := fun j => (s.stage j).rank) (fun _ _ => Nat.zero_le _)
          (Finset.mem_univ i)
      have := Stage.rank_pos hi
      simp only [List.length_nil] at hlen
      omega
    · rfl
  | cons r rounds ih =>
    by_cases hne : ∃ i, (s.stage i).isDone = false
    · have hlt := rank_round_lt hne (hfair r (.head _))
      rw [List.flatten_cons, run_append]
      exact ih _ (fun r' h => hfair r' (.tail _ h)) (by simp only [List.length_cons] at hlen; omega)
    · have hdone : ∀ i, (s.stage i).isDone = true := by simpa using hne
      rw [run_of_isDone hdone]
      exact hdone

theorem Stage.reply?_isSome {st : Stage} (h : st.isDone = true) : st.reply?.isSome = true := by
  cases st <;> simp_all [Stage.isDone, Stage.reply?]

/-- Once every task has ended, the log holds each task once. -/
theorem Serializes.perm (hs : s.Serializes meta₀ log) (hdone : ∀ i, (s.stage i).isDone = true) :
    log.Perm (List.finRange n) :=
  (List.perm_ext_iff_of_nodup hs.nodup (List.nodup_finRange n)).2 fun i => by
    simpa [hs.mem] using Stage.reply?_isSome (hdone i)

section Runs

variable (meta₀ : S3MetaData) (request : Fin n → DistRequest) (sched : List (Fin n))

/-- Every schedule from the start keeps the invariant, with the order the tasks committed
in as its log. -/
theorem inv_of_run :
    ((init meta₀ request).run sched).Inv meta₀ ((init meta₀ request).commitLog sched) := by
  simpa using (Inv.init meta₀ request).run sched

theorem Serializes.serve_init
    (hs : ((init meta₀ request).run sched).Serializes meta₀ log) :
    serve meta₀ (log.map request) =
      (log.map fun i => (((init meta₀ request).run sched).stage i).reply?.getD none,
        ((init meta₀ request).run sched).meta) := by
  simpa using hs.serve_eq

/-- Linearizability. On every schedule, the tasks past their commit point, served
atomically one after another from the initial maps in the order they committed in, each
get the reply they got, and together they leave the maps the interleaving left. -/
theorem run_linearizable :
    ((init meta₀ request).run sched).Serializes meta₀
      ((init meta₀ request).commitLog sched) :=
  (inv_of_run meta₀ request sched).serializes

/-- On every schedule, a task that has resolved its key under the path lock finds the key
still mapped to the same inode when it takes the cache lock: the lookup never goes stale. -/
theorem run_resolved_current {i : Fin n} {inum : INum}
    (h : ((init meta₀ request).run sched).stage i = .resolved inum) :
    ∃ m key r, (request i).pathLock = some (m, key, r) ∧
      ((init meta₀ request).run sched).meta.path2inum key = some inum := by
  simpa using (inv_of_run meta₀ request sched).resolved_key i inum h

/-- A request resolved under the path lock, before its cache lock. -/
theorem run_resolved_current_root :
    let s := (init (S3MetaData.root "/" ⟨1, .S_IFDIR, 0, 0o755, 0, 0⟩ 2)
      ![DistRequest.GetFileAttr "/"]).run [0]
    s.stage 0 = .resolved 1 ∧
      ∃ m key r, (DistRequest.GetFileAttr "/").pathLock = some (m, key, r) ∧
        s.meta.path2inum key = some 1 :=
  ⟨rfl, run_resolved_current (S3MetaData.root "/" ⟨1, .S_IFDIR, 0, 0o755, 0, 0⟩ 2)
    ![.GetFileAttr "/"] [0] (i := 0) rfl⟩

/-- A schedule that runs every task to its end serves every request exactly once: the
tasks in the order they committed in, served atomically from the initial maps, give each
task its reply and leave the maps the run left. -/
theorem run_complete_serializes
    (hdone : ∀ i, (((init meta₀ request).run sched).stage i).isDone = true) :
    let s := (init meta₀ request).run sched
    let log := (init meta₀ request).commitLog sched
    log.Perm (List.finRange n) ∧
      serve meta₀ (log.map request) = (log.map fun i => (s.stage i).reply?.getD none, s.meta) :=
  let hs := (inv_of_run meta₀ request sched).serializes
  ⟨hs.perm hdone, hs.serve_init⟩

/-- Two children added to the root, the second task blocked on the path lock until the
first has replied. -/
theorem run_complete_serializes_root :
    let meta₀ := S3MetaData.root "/" ⟨1, .S_IFDIR, 0, 0o755, 0, 0⟩ 2
    let request : Fin 2 → DistRequest :=
      ![.UpdateDir ⟨"/", "a", ⟨2, .S_IFDIR, 0, 0o755, 0, 0⟩, none⟩,
        .UpdateDir ⟨"/", "b", ⟨3, .S_IFDIR, 0, 0o755, 0, 0⟩, none⟩]
    let sched : List (Fin 2) := [0, 1, 0, 0, 0, 1, 1, 1, 1]
    let s := (init meta₀ request).run sched
    let log := (init meta₀ request).commitLog sched
    (∀ i, (s.stage i).isDone = true) ∧ log.Perm (List.finRange 2) ∧
      serve meta₀ (log.map request) = (log.map fun i => (s.stage i).reply?.getD none, s.meta) :=
  ⟨by decide, run_complete_serializes _ _ _ (by decide)⟩

/-- Interleaving does not matter to pairwise independent requests: from a state keeping
invariants (1) and (3), every schedule that runs them all to their end leaves the maps
they leave served one after another in the order given. -/
theorem run_meta_of_independent (h : meta₀.PathIndexed)
    (hind : Pairwise fun i j => Independent meta₀ (request i) (request j))
    (hdone : ∀ i, (((init meta₀ request).run sched).stage i).isDone = true) :
    ((init meta₀ request).run sched).meta = dispatchAll meta₀ (List.ofFn request) := by
  have hs := (inv_of_run meta₀ request sched).serializes
  have hp := hs.perm hdone
  have hmeta := congrArg Prod.snd hs.serve_init
  rw [serve_snd] at hmeta
  rw [List.ofFn_eq_map]
  exact hmeta.symm.trans (dispatchAll_perm (hp.map request) meta₀ h
    (List.pairwise_map.2 (hs.nodup.imp fun hij => hind hij)))

/-- Two children added to the root from two tasks that interleave. -/
theorem run_meta_of_independent_root :
    let meta₀ := S3MetaData.root "/" ⟨1, .S_IFDIR, 0, 0o755, 0, 0⟩ 2
    let request : Fin 2 → DistRequest :=
      ![.UpdateDir ⟨"/", "a", ⟨2, .S_IFDIR, 0, 0o755, 0, 0⟩, none⟩,
        .UpdateDir ⟨"/", "b", ⟨3, .S_IFDIR, 0, 0o755, 0, 0⟩, none⟩]
    let s := (init meta₀ request).run [0, 1, 0, 0, 0, 1, 1, 1, 1]
    (∀ i, (s.stage i).isDone = true) ∧ s.meta = dispatchAll meta₀ (List.ofFn request) := by
  intro meta₀ request s
  have h01 : Independent meta₀ (request 0) (request 1) :=
    ⟨⟨_, _, rfl, rfl, by decide⟩, by rintro p ⟨⟩; decide, by rintro p ⟨⟩; decide,
      by rintro i ⟨⟩; rfl, by rintro i ⟨⟩; rfl, by rintro i ⟨⟩; decide⟩
  have hind : Pairwise fun i j => Independent meta₀ (request i) (request j) := by
    simp only [Pairwise, Fin.forall_fin_two, ne_eq, not_true_eq_false, false_implies,
      Fin.zero_eq_one_iff, Fin.one_eq_zero_iff, true_and, and_true]
    exact ⟨fun _ => h01, fun _ => h01.symm⟩
  exact ⟨by decide, run_meta_of_independent meta₀ request _
    (S3MetaData.root_consistent _ _ _).toPathIndexed hind (by decide)⟩

/-- Liveness under a fair executor: from every state, a schedule made of `4 n` rounds, each
of which polls every task at least once, runs every task to its end. -/
theorem run_fair_done (s : Tasks n) (rounds : List (List (Fin n)))
    (hfair : ∀ r ∈ rounds, ∀ i, i ∈ r) (hlen : 4 * n ≤ rounds.length) :
    ∀ i, ((s.run rounds.flatten).stage i).isDone = true :=
  run_rounds s rounds hfair ((rank_le s).trans hlen)

/-- Two children added to the root, polled in turn, the second task first. -/
theorem run_fair_done_root :
    let s := init (S3MetaData.root "/" ⟨1, .S_IFDIR, 0, 0o755, 0, 0⟩ 2)
      ![.UpdateDir ⟨"/", "a", ⟨2, .S_IFDIR, 0, 0o755, 0, 0⟩, none⟩,
        .UpdateDir ⟨"/", "b", ⟨3, .S_IFDIR, 0, 0o755, 0, 0⟩, none⟩]
    let rounds : List (List (Fin 2)) := List.replicate 8 [1, 0]
    (∀ r ∈ rounds, ∀ i, i ∈ r) ∧ 4 * 2 ≤ rounds.length ∧
      ∀ i, ((s.run rounds.flatten).stage i).isDone = true :=
  ⟨by decide, by decide, run_fair_done _ _ (by decide) (by decide)⟩

/-- No schedule deadlocks, and none is needed to run long: while some task has not ended
some task can step, and from every state a schedule of at most four picks a task runs
every task to its end. -/
theorem progress (s : Tasks n) :
    ((∃ i, (s.stage i).isDone = false) → ∃ i s', s.step i = some s') ∧
      ∃ sched : List (Fin n), sched.length ≤ 4 * n ∧
        ∀ i, ((s.run sched).stage i).isDone = true :=
  ⟨exists_step,
    let ⟨sched, hl, hd⟩ := exists_run_done s
    ⟨sched, hl.trans (rank_le s), hd⟩⟩

end Runs

end Tasks

end DatenLord.Dist
