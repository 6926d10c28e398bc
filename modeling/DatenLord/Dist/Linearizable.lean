import DatenLord.Dist.Namespace
import DatenLord.Dist.Tasks

/-!
# The concurrent server implements the namespace

Linearizability of the peers' tasks, stated against the namespace rather than the maps.
On every schedule, the namespace serving the committed requests atomically, one after
another in the order the tasks committed in, answers each task as it was answered and
leaves the namespace the maps now serve.

What this needs is what a serial run needs to be a run of the namespace, for every order
of the tasks at once: each `UpdateDir` makes an inode the maps have not cached, no two
the same. No request caches an inode it does not make, so each `UpdateDir` still finds its
child inode uncached when it commits, whichever tasks committed before it.
-/
namespace DatenLord.Dist

/-- The namespace serving requests atomically one after another: each one's reply (`none`
where it panics), and the namespace left. -/
def Namespace.serve (ns : Namespace) :
    List DistRequest → List (Option DistResponse) × Namespace
  | [] => ([], ns)
  | req :: reqs =>
    let rest := (ns.dispatchState req).serve reqs
    ((ns.dispatch req).map (fun p => p.2.1) :: rest.1, rest.2)

namespace S3MetaData

variable {meta : S3MetaData} {reqs : List DistRequest}

/-- An admissible serial run of the maps is one of the namespace, reply by reply. -/
theorem PathIndexed.serve_abs (h : meta.PathIndexed) (hr : AdmissibleRun meta reqs) :
    meta.abs.serve reqs = ((serve meta reqs).1, (serve meta reqs).2.abs) := by
  induction reqs generalizing meta with
  | nil => rfl
  | cons req reqs ih =>
    obtain ⟨hr₁, hr₂⟩ := hr
    have hreply : (meta.abs.dispatch req).map (fun p => p.2.1) =
        (dispatch meta req).map (fun p => p.2.1) := by
      rw [← dispatch_refines meta req h hr₁, Option.map_map]
      rfl
    simp only [Namespace.serve, serve, hreply, ← h.dispatchState_abs hr₁,
      ih (h.step hr₁) hr₂]

end S3MetaData

/-- An `UpdateDir` whose child inode is uncached is admissible, and so is every other
request. -/
theorem DistRequest.admissible_of_childIno {meta : S3MetaData} {req : DistRequest}
    (h : ∀ x, req.childIno = some x → meta.cache x = none) : req.Admissible meta := by
  cases req with
  | UpdateDir a => intro c hc; rw [h _ rfl] at hc; cases hc
  | _ => trivial

/-- A run whose `UpdateDir`s each make an inode uncached at its start, no two the same, is
admissible: no request caches another's child inode. -/
theorem admissibleRun_of_childIno {meta : S3MetaData} {reqs : List DistRequest}
    (hnd : (reqs.filterMap DistRequest.childIno).Nodup)
    (hfresh : ∀ x ∈ reqs.filterMap DistRequest.childIno, meta.cache x = none) :
    AdmissibleRun meta reqs := by
  induction reqs generalizing meta with
  | nil => trivial
  | cons req reqs ih =>
    have hsub := (List.sublist_cons_self req reqs).filterMap DistRequest.childIno
    have hhead : ∀ x, req.childIno = some x →
        meta.cache x = none ∧ x ∉ reqs.filterMap DistRequest.childIno := fun x hx => by
      rw [List.filterMap_cons_some hx] at hnd hfresh
      exact ⟨hfresh x (List.mem_cons_self _ _), (List.nodup_cons.1 hnd).1⟩
    exact ⟨DistRequest.admissible_of_childIno fun x hx => (hhead x hx).1,
      ih (hnd.sublist hsub) fun x hx =>
        cache_dispatchState_eq_none req (hfresh x (hsub.subset hx)) fun h => (hhead x h).2 hx⟩

namespace Tasks

variable {n : Nat} (meta₀ : S3MetaData) (request : Fin n → DistRequest) (sched : List (Fin n))

/-- Linearizability against the namespace. From a state keeping invariants (1) and (3),
when each `UpdateDir` among the tasks makes an inode the maps have not cached, no two the
same, every schedule is linearizable with respect to the namespace: served atomically in
the order the tasks committed in, the namespace gives each committed task the reply it
got and leaves the namespace the maps now serve. -/
theorem run_serves_namespace (h : meta₀.PathIndexed)
    (hfresh : ∀ i x, (request i).childIno = some x → meta₀.cache x = none)
    (hdistinct : ∀ i j x, (request i).childIno = some x → (request j).childIno = some x →
      i = j) :
    let s := (init meta₀ request).run sched
    let log := (init meta₀ request).commitLog sched
    meta₀.abs.serve (log.map request) =
      (log.map fun i => (s.stage i).reply?.getD none, s.meta.abs) := by
  have hs := (inv_of_run meta₀ request sched).serializes
  have hr : AdmissibleRun meta₀ (((init meta₀ request).commitLog sched).map request) := by
    apply admissibleRun_of_childIno
    · rw [List.filterMap_map]
      exact hs.nodup.filterMap hdistinct
    · intro x hx
      rw [List.filterMap_map, List.mem_filterMap] at hx
      obtain ⟨i, -, hi⟩ := hx
      exact hfresh i x hi
  exact (h.serve_abs hr).trans (congrArg (fun p => (p.1, p.2.abs)) hs.serve_init)

/-- Two children added to the root by two tasks, stopped with the first replying and the
second waiting on the path lock. -/
theorem run_serves_namespace_root :
    let meta₀ := S3MetaData.root "/" ⟨1, .S_IFDIR, 0, 0o755, 0, 0⟩ 2
    let request : Fin 2 → DistRequest :=
      ![.UpdateDir ⟨"/", "a", ⟨2, .S_IFDIR, 0, 0o755, 0, 0⟩, none⟩,
        .UpdateDir ⟨"/", "b", ⟨3, .S_IFDIR, 0, 0o755, 0, 0⟩, none⟩]
    let sched : List (Fin 2) := [0, 1, 0, 1, 0]
    let s := (init meta₀ request).run sched
    let log := (init meta₀ request).commitLog sched
    meta₀.abs.serve (log.map request) =
      (log.map fun i => (s.stage i).reply?.getD none, s.meta.abs) := by
  intro meta₀ request sched
  have hfresh : ∀ i x, (request i).childIno = some x → meta₀.cache x = none :=
    Fin.forall_fin_two.2 ⟨by rintro x ⟨⟩; rfl, by rintro x ⟨⟩; rfl⟩
  have hdistinct : ∀ i j x, (request i).childIno = some x → (request j).childIno = some x →
      i = j :=
    Fin.forall_fin_two.2 ⟨Fin.forall_fin_two.2 ⟨fun _ _ _ => rfl, by rintro x ⟨⟩ ⟨⟩⟩,
      Fin.forall_fin_two.2 ⟨by rintro x ⟨⟩ ⟨⟩, fun _ _ _ => rfl⟩⟩
  exact run_serves_namespace meta₀ request sched (S3MetaData.root_consistent _ _ _).toPathIndexed
    hfresh hdistinct

end Tasks

end DatenLord.Dist
