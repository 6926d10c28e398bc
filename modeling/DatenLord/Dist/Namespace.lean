import DatenLord.Dist.Reachable

/-!
# The namespace the maps implement

What a peer's path index and inode cache are for: to serve one node at each path, its
attributes to `GetFileAttr` and its directory map to `LoadDir`. `Namespace` keeps just
that, with the inode counter `GetInodeNum` reads, and `Namespace.dispatch` is the server
stated on paths alone. `S3MetaData.abs` forgets the inode indirection. From every state
keeping invariants (1) and (3), one admissible request to the maps is one request to the
namespace, with the same reply and the same panics, and so is every admissible run.

On paths, `RemoveDirEntry` rewrites the parent alone: the child's path goes on serving
the child.
-/
namespace DatenLord.Dist

/-- The node served at each path, and the inode counter. -/
structure Namespace where
  nodes : String → Option S3Node
  curInum : UInt32

/-- The namespace the maps serve: at each path, the node stored under the inode the
path is indexed under. -/
def S3MetaData.abs (meta : S3MetaData) : Namespace :=
  ⟨fun path => (meta.path2inum path).bind meta.cache, meta.curInum⟩

namespace Namespace

/-- The server on paths alone: the continue flag, the reply and the namespace left;
`none` where the server panics, on a path serving a node that is not a directory. -/
def dispatch (ns : Namespace) : DistRequest → Option (Bool × DistResponse × Namespace)
  | .TurnOff => some (false, .TurnOff, ns)
  | .LoadDir path =>
    match ns.nodes path with
    | none => some (true, .LoadDir none, ns)
    | some n => n.getDirData.map fun d => (true, .LoadDir (some d), ns)
  | .UpdateDir a =>
    match ns.nodes a.parentPath with
    | none => some (true, .UpdateDir, ns)
    | some p => p.getDirData.map fun d =>
      (true, .UpdateDir, { ns with
        nodes := Function.update
          (Function.update ns.nodes a.parentPath
            (some { p with data := .Directory (Function.update d a.childName (some a.entry)) }))
          (joinPath a.parentPath a.childName)
          (some (p.newChildNodeOfParent a.childName a.childAttr a.targetPath)) })
  | .RemoveDirEntry a =>
    match ns.nodes a.parentPath with
    | none => some (true, .UpdateDir, ns)
    | some p => p.getDirData.map fun d =>
      (true, .UpdateDir, { ns with
        nodes := Function.update ns.nodes a.parentPath
          (some { p with data := .Directory (Function.update d a.childName none) }) })
  | .GetFileAttr path => some (true, .GetAttr ((ns.nodes path).map S3Node.getAttr), ns)
  | .PushFileAttr path attr =>
    some (true, .PushAttr,
      match ns.nodes path with
      | none => ns
      | some n => { ns with
          nodes := Function.update ns.nodes path (some (n.setAttr { attr with ino := n.getIno })) })
  | .GetInodeNum => some (true, .InodeNum ns.curInum, ns)

/-- The namespace once a request's task has ended, unchanged where it panicked. -/
def dispatchState (ns : Namespace) (req : DistRequest) : Namespace :=
  ((ns.dispatch req).map fun p => p.2.2).getD ns

/-- Requests served one after another. -/
def dispatchAll (ns : Namespace) : List DistRequest → Namespace
  | [] => ns
  | req :: reqs => (ns.dispatchState req).dispatchAll reqs

end Namespace

namespace S3MetaData

variable {meta : S3MetaData} {p : String} {i : INum}

@[simp] theorem abs_nodes (meta : S3MetaData) (path : String) :
    meta.abs.nodes path = (meta.path2inum path).bind meta.cache := rfl

@[simp] theorem abs_curInum (meta : S3MetaData) : meta.abs.curInum = meta.curInum := rfl

/-- Indexing a path under an inode no other path is indexed under, and storing a node
there, serves that node at the path and changes nothing else. -/
theorem abs_insert (meta : S3MetaData) (q : String) (i : INum) (x : Option S3Node)
    (hi : ∀ r, meta.path2inum r = some i → r = q) :
    ({ meta with path2inum := Function.update meta.path2inum q (some i)
                 cache := Function.update meta.cache i x } : S3MetaData).abs =
      { meta.abs with nodes := Function.update meta.abs.nodes q x } := by
  simp only [abs, Namespace.mk.injEq, and_true]
  funext r
  by_cases hr : r = q
  · subst hr
    simp
  · rw [Function.update_noteq hr, Function.update_noteq hr]
    cases hk : meta.path2inum r with
    | none => rfl
    | some k => exact Function.update_noteq (fun (hki : k = i) => hr (hi r (hki ▸ hk))) _ _

/-- Replacing the node under an indexed inode replaces the node served at its path,
and nowhere else. -/
theorem PathIndexed.abs_update_cache (h : meta.PathIndexed) (hp : meta.path2inum p = some i)
    (x : Option S3Node) :
    ({ meta with cache := Function.update meta.cache i x } : S3MetaData).abs =
      { meta.abs with nodes := Function.update meta.abs.nodes p x } := by
  have := abs_insert meta p i x fun r hr => h.path_inj hr hp
  rwa [← hp, Function.update_eq_self] at this

/-- An `update_dir`'s two writes: the parent in place, and the child under an inode no
other path is indexed under. -/
theorem PathIndexed.abs_update_insert (h : meta.PathIndexed) (hp : meta.path2inum p = some i)
    {q : String} {j : INum} (hq : ∀ r, meta.path2inum r = some j → r = q) (x y : Option S3Node) :
    ({ meta with path2inum := Function.update meta.path2inum q (some j)
                 cache := Function.update (Function.update meta.cache i x) j y } : S3MetaData).abs =
      { meta.abs with nodes := Function.update (Function.update meta.abs.nodes p x) q y } := by
  refine (abs_insert { meta with cache := Function.update meta.cache i x } q j y hq).trans ?_
  rw [h.abs_update_cache hp]

end S3MetaData

/-- The maps refine the namespace: from every state keeping invariants (1) and (3), an
admissible request answers as the namespace does, with the same continue flag, panics
where it panics, and leaves maps serving the namespace it leaves. An admissible
`UpdateDir`'s child inode is indexed under no path but the child's. -/
theorem dispatch_refines (meta : S3MetaData) (req : DistRequest) (h : meta.PathIndexed)
    (hr : req.Admissible meta) :
    (dispatch meta req).map (fun p => (p.1, p.2.1, p.2.2.abs)) = meta.abs.dispatch req := by
  cases req with
  | TurnOff => rfl
  | GetInodeNum => rfl
  | GetFileAttr path =>
    simp only [dispatch, getAttr, Namespace.dispatch, S3MetaData.abs_nodes, Option.map_some']
    cases hp : meta.path2inum path with
    | none => rfl
    | some i => cases hn : meta.cache i <;> simp [hn]
  | LoadDir path =>
    simp only [dispatch, loadDir, Namespace.dispatch, S3MetaData.abs_nodes]
    cases hp : meta.path2inum path with
    | none => rfl
    | some i =>
      cases hn : meta.cache i with
      | none => simp [hn]
      | some n => cases hd : n.getDirData <;> simp [hn, hd]
  | PushFileAttr path attr =>
    simp only [dispatch, pushAttr, Namespace.dispatch, S3MetaData.abs_nodes, Option.map_some']
    cases hp : meta.path2inum path with
    | none => rfl
    | some i =>
      cases hn : meta.cache i with
      | none => simp [hn]
      | some n => simp [hn, h.abs_update_cache hp, S3Node.getIno, S3Node.getAttr]
  | RemoveDirEntry a =>
    cases hp : meta.path2inum a.parentPath with
    | none => simp [dispatch, Dist.removeDirEntry, Namespace.dispatch, hp]
    | some pi =>
      cases hn : meta.cache pi with
      | none => simp [dispatch, Dist.removeDirEntry, Namespace.dispatch, hp, hn]
      | some n =>
        cases hd : n.getDirData <;>
          simp [dispatch, Dist.removeDirEntry, Namespace.dispatch, hp, hn, hd,
            S3Node.modifyDirData, h.abs_update_cache hp]
  | UpdateDir a =>
    cases hp : meta.path2inum a.parentPath with
    | none => simp [dispatch, Dist.updateDir, Namespace.dispatch, hp]
    | some pi =>
      cases hn : meta.cache pi with
      | none => simp [dispatch, Dist.updateDir, Namespace.dispatch, hp, hn]
      | some n =>
        cases hd : n.getDirData with
        | none =>
          simp [dispatch, Dist.updateDir, Namespace.dispatch, hp, hn, hd, S3Node.modifyDirData]
        | some d =>
          simp [dispatch, Dist.updateDir, Namespace.dispatch, hp, hn, hd, S3Node.modifyDirData,
            UpdateDirArgs.entry]
          rw [h.fullPath_eq hp hn]
          exact h.abs_update_insert hp (fun r hr' => by
            obtain ⟨c, hc, rfl⟩ := h.path_node r _ hr'
            exact hr c hc) _ _

/-- A directory made under the root. -/
theorem dispatch_refines_mkdir :
    let meta := S3MetaData.root "/" ⟨1, .S_IFDIR, 0, 0o755, 0, 0⟩ 2
    let req := DistRequest.UpdateDir ⟨"/", "a", ⟨2, .S_IFDIR, 0, 0o755, 0, 0⟩, none⟩
    (dispatch meta req).map (fun p => (p.1, p.2.1, p.2.2.abs)) = meta.abs.dispatch req :=
  dispatch_refines _ _ (S3MetaData.root_consistent _ _ _).toPathIndexed fun c hc => by cases hc

theorem S3MetaData.PathIndexed.dispatchState_abs {meta : S3MetaData} (h : meta.PathIndexed)
    {req : DistRequest} (hr : req.Admissible meta) :
    (dispatchState meta req).abs = meta.abs.dispatchState req := by
  rw [Namespace.dispatchState, ← dispatch_refines meta req h hr, dispatchState]
  cases dispatch meta req <;> rfl

/-- A run in which every request is admissible in the state it arrives in. -/
def AdmissibleRun : S3MetaData → List DistRequest → Prop
  | _, [] => True
  | meta, req :: reqs => req.Admissible meta ∧ AdmissibleRun (dispatchState meta req) reqs

/-- Every admissible run of the maps from a state keeping invariants (1) and (3) is a
run of the namespace. -/
theorem dispatchAll_refines (meta : S3MetaData) (reqs : List DistRequest)
    (h : meta.PathIndexed) (hr : AdmissibleRun meta reqs) :
    (dispatchAll meta reqs).abs = meta.abs.dispatchAll reqs := by
  induction reqs generalizing meta with
  | nil => rfl
  | cons req reqs ih =>
    obtain ⟨hr₁, hr₂⟩ := hr
    rw [dispatchAll, Namespace.dispatchAll, ← h.dispatchState_abs hr₁]
    exact ih _ (h.step hr₁) hr₂

/-- A directory and a file in it made, the file's attributes pushed, and the
directory's entry removed from the root. -/
theorem dispatchAll_refines_mkdir_touch :
    (dispatchAll (S3MetaData.root "/" ⟨1, .S_IFDIR, 0, 0o755, 0, 0⟩ 2)
      [.UpdateDir ⟨"/", "a", ⟨2, .S_IFDIR, 0, 0o755, 0, 0⟩, none⟩,
        .UpdateDir ⟨"//a", "x", ⟨3, .S_IFREG, 0, 0o644, 0, 0⟩, none⟩,
        .PushFileAttr "//a/x" ⟨3, .S_IFREG, 5, 0o600, 0, 0⟩, .RemoveDirEntry ⟨"/", "a"⟩]).abs =
      (S3MetaData.root "/" ⟨1, .S_IFDIR, 0, 0o755, 0, 0⟩ 2).abs.dispatchAll
        [.UpdateDir ⟨"/", "a", ⟨2, .S_IFDIR, 0, 0o755, 0, 0⟩, none⟩,
          .UpdateDir ⟨"//a", "x", ⟨3, .S_IFREG, 0, 0o644, 0, 0⟩, none⟩,
          .PushFileAttr "//a/x" ⟨3, .S_IFREG, 5, 0o600, 0, 0⟩, .RemoveDirEntry ⟨"/", "a"⟩] :=
  dispatchAll_refines _ _ (S3MetaData.root_consistent _ _ _).toPathIndexed
    ⟨fun c hc => (by cases hc), fun c hc => (by cases hc), trivial, trivial, trivial⟩

end DatenLord.Dist
