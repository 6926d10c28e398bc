import DatenLord.Dist.Consistency

/-!
# Reachable metadata states

The states a peer server passes through from a store holding one root directory,
when every `UpdateDir` it serves is `Fresh`. In every one of them the path index names the
node at each indexed path, but it outlives directory entries: `RemoveDirEntry`
never touches it. And an `UpdateDir` replaces the node under its child inode
outright, so re-delivering one for an existing directory empties that directory.
-/
namespace DatenLord.Dist

/-- A request a peer may deliver in state `meta`: an `UpdateDir` only when its child
inode is absent or already holds the node at the child's path (`Fresh`); every other
request at any time. -/
def DistRequest.Admissible (meta : S3MetaData) : DistRequest → Prop
  | .UpdateDir a => a.Fresh meta
  | _ => True

/-- The states reachable from a store holding one root directory. -/
inductive Reachable (rootPath : String) (rootAttr : FileAttr) (curInum : UInt32) :
    S3MetaData → Prop
  | root : Reachable rootPath rootAttr curInum (.root rootPath rootAttr curInum)
  | step {meta : S3MetaData} (req : DistRequest) :
      Reachable rootPath rootAttr curInum meta → req.Admissible meta →
      Reachable rootPath rootAttr curInum (dispatchState meta req)

variable {rootPath : String} {rootAttr : FileAttr} {curInum : UInt32} {meta : S3MetaData}

theorem S3MetaData.PathIndexed.step {req : DistRequest} (h : meta.PathIndexed)
    (hr : req.Admissible meta) : (dispatchState meta req).PathIndexed := by
  cases req with
  | TurnOff => exact h
  | LoadDir path => rwa [dispatchState_loadDir]
  | UpdateDir a => exact h.updateDir hr
  | RemoveDirEntry a => exact h.removeDirEntry a
  | GetFileAttr path => exact h
  | PushFileAttr path attr => exact h.pushFileAttr path attr
  | GetInodeNum => exact h

theorem Reachable.pathIndexed (h : Reachable rootPath rootAttr curInum meta) :
    meta.PathIndexed := by
  induction h with
  | root => exact (S3MetaData.root_consistent _ _ _).toPathIndexed
  | step _ _ hr ih => exact ih.step hr

/-- `RemoveDirEntry` changes what `LoadDir` answers only for its parent's path. -/
theorem S3MetaData.PathIndexed.loadDir_removeDirEntry (h : meta.PathIndexed)
    (a : RemoveDirEntryArgs) {path : String} (hpath : path ≠ a.parentPath) :
    loadDir (dispatchState meta (.RemoveDirEntry a)) path = loadDir meta path := by
  obtain ⟨-, hs⟩ | ⟨pi, n, d, hp, -, -, hs⟩ := dispatchState_removeDirEntry_cases meta a <;> rw [hs]
  simp only [loadDir]
  cases hq : meta.path2inum path with
  | none => rfl
  | some i =>
    have hi : i ≠ pi := fun hi => hpath (h.path_inj hq (hi ▸ hp))
    simp [Function.update_noteq hi]

/-- The path index survives every admissible run, and outlives directory entries:
`RemoveDirEntry` leaves it as it was, so a removed child's path still resolves,
`GetFileAttr` answers as before for every path, and `LoadDir` for every path but
the parent's. -/
theorem reachable_index_outlives_entries (h : Reachable rootPath rootAttr curInum meta) :
    meta.PathIndexed ∧ ∀ a : RemoveDirEntryArgs,
      (dispatchState meta (.RemoveDirEntry a)).path2inum = meta.path2inum ∧
      ∀ path, getAttr (dispatchState meta (.RemoveDirEntry a)) path = getAttr meta path ∧
        (path ≠ a.parentPath →
          loadDir (dispatchState meta (.RemoveDirEntry a)) path = loadDir meta path) :=
  ⟨h.pathIndexed, fun a => ⟨path2inum_removeDirEntry meta a, fun _ =>
    ⟨getAttr_removeDirEntry meta a _, h.pathIndexed.loadDir_removeDirEntry a⟩⟩⟩

theorem reachable_index_outlives_entries_mkdir :
    let attr (ino : INum) : FileAttr := ⟨ino, .S_IFDIR, 0, 0o755, 0, 0⟩
    let meta := dispatchState (.root "/" (attr 1) 2) (.UpdateDir ⟨"/", "b", attr 2, none⟩)
    meta.PathIndexed ∧ ∀ a : RemoveDirEntryArgs,
      (dispatchState meta (.RemoveDirEntry a)).path2inum = meta.path2inum ∧
      ∀ path, getAttr (dispatchState meta (.RemoveDirEntry a)) path = getAttr meta path ∧
        (path ≠ a.parentPath →
          loadDir (dispatchState meta (.RemoveDirEntry a)) path = loadDir meta path) :=
  reachable_index_outlives_entries (.step _ .root fun c hc => by cases hc)

/-- A peer reads back what it wrote. After an `UpdateDir` whose parent path resolves
to a directory, `GetFileAttr` at the child's path answers the child's attributes and
`LoadDir` at the parent's path answers a map holding the child's entry; after a
`PushFileAttr` to a cached node, `GetFileAttr` answers the pushed attributes with the
node's own inode number. -/
theorem dispatchState_read_back (meta : S3MetaData) (h : meta.PathIndexed) :
    (∀ a pi n d, a.Fresh meta → meta.path2inum a.parentPath = some pi →
      meta.cache pi = some n → n.getDirData = some d →
      getAttr (dispatchState meta (.UpdateDir a)) (joinPath a.parentPath a.childName) =
          .GetAttr (some a.childAttr) ∧
        ∃ dir, loadDir (dispatchState meta (.UpdateDir a)) a.parentPath =
          some (.LoadDir (some dir)) ∧ dir a.childName = some a.entry) ∧
    ∀ path attr i n, meta.path2inum path = some i → meta.cache i = some n →
      getAttr (dispatchState meta (.PushFileAttr path attr)) path =
        .GetAttr (some { attr with ino := n.getIno }) := by
  refine ⟨fun a pi n d hf hp hn hd => ?_, fun path attr i n hp hn => ?_⟩
  · have hci := h.childIno_ne hf hp hn
    rw [dispatchState_updateDir a hp hn hd, h.fullPath_eq hp hn]
    refine ⟨by simp [getAttr, S3Node.getAttr, S3Node.newChildNodeOfParent],
      Function.update d a.childName (some a.entry), ?_, Function.update_same _ _ _⟩
    simp [loadDir, Function.update_noteq (joinPath_ne_self _ _).symm, hp,
      Function.update_noteq hci.symm, S3Node.getDirData]
  · rw [dispatchState_pushFileAttr path attr hp hn]
    simp [getAttr, hp, S3Node.getAttr, S3Node.setAttr]

/-- `mkdir /a` as inode 2 in the root, read back by both requests; and attributes
pushed to the root, stamped with the root's inode. -/
theorem dispatchState_read_back_root :
    let attr (ino : INum) : FileAttr := ⟨ino, .S_IFDIR, 0, 0o755, 0, 0⟩
    let meta := S3MetaData.root "/" (attr 1) 2
    let a : UpdateDirArgs := ⟨"/", "a", attr 2, none⟩
    (getAttr (dispatchState meta (.UpdateDir a)) (joinPath "/" "a") = .GetAttr (some (attr 2)) ∧
      ∃ dir, loadDir (dispatchState meta (.UpdateDir a)) "/" = some (.LoadDir (some dir)) ∧
        dir "a" = some a.entry) ∧
    getAttr (dispatchState meta (.PushFileAttr "/" (attr 7))) "/" = .GetAttr (some (attr 1)) := by
  intro attr meta a
  have h := dispatchState_read_back meta (S3MetaData.root_consistent _ _ _).toPathIndexed
  exact ⟨h.1 a 1 _ _ (fun c hc => by cases hc) rfl rfl rfl, h.2 "/" (attr 7) 1 _ rfl rfl⟩

/-- The path index names live children only: every path but the root's is the full
path of a child entered under its last component in the directory its parent path
resolves to. -/
def S3MetaData.LiveIndex (meta : S3MetaData) (rootPath : String) : Prop :=
  ∀ p i, meta.path2inum p = some i → p ≠ rootPath →
    ∃ pp name pi e, p = joinPath pp name ∧ meta.path2inum pp = some pi ∧
      meta.entry pi name = some e ∧ e.ino = i

/-- After `UpdateDir("/", "b")` and `RemoveDirEntry("/", "b")` the path `//b` still
resolves to the child's inode, whose node is still cached, so `GetFileAttr` for it
answers the child's attributes. -/
theorem removeDirEntry_keeps_path :
    ¬ ∀ rootPath rootAttr curInum meta, Reachable rootPath rootAttr curInum meta →
      meta.LiveIndex rootPath ∧ ∀ a : RemoveDirEntryArgs,
        (dispatchState meta (.RemoveDirEntry a)).path2inum (joinPath a.parentPath a.childName) =
          none := by
  intro h
  let attr (ino : INum) : FileAttr := ⟨ino, .S_IFDIR, 0, 0o755, 0, 0⟩
  let s₁ := dispatchState (.root "/" (attr 1) 2) (.UpdateDir ⟨"/", "b", attr 2, none⟩)
  have hb := (h "/" (attr 1) 2 s₁ (.step _ .root fun c hc => by cases hc)).2 ⟨"/", "b"⟩
  cases hb

/-- What an `UpdateDir` does to directory entries, from any state: every entry held
under a key other than the child inode is kept, except the parent's entry for the
child's name, which now names the child; the node under the child inode is a fresh
one with no entries. -/
theorem updateDir_entries (meta : S3MetaData) (a : UpdateDirArgs) :
    (∀ k name e, meta.entry k name = some e → k ≠ a.childAttr.ino →
      (meta.path2inum a.parentPath = some k → name ≠ a.childName) →
      (dispatchState meta (.UpdateDir a)).entry k name = some e) ∧
    ∀ pi n d, meta.path2inum a.parentPath = some pi → meta.cache pi = some n →
      n.getDirData = some d →
      (pi ≠ a.childAttr.ino → (dispatchState meta (.UpdateDir a)).entry pi a.childName = some a.entry) ∧
      ∀ name, (dispatchState meta (.UpdateDir a)).entry a.childAttr.ino name = none := by
  constructor
  · intro k name e he hk hpk
    obtain ⟨-, hs⟩ | ⟨pi, n, d, hp, hn, hd, hs⟩ := dispatchState_updateDir_cases meta a <;> rw [hs]
    · exact he
    by_cases hkp : k = pi
    · subst hkp
      have hname := hpk hp
      simp only [S3MetaData.entry, hn, Option.some_bind, hd] at he
      simp [S3MetaData.entry, Function.update_noteq hk, hname, he]
    · simpa [S3MetaData.entry, Function.update_noteq hk, Function.update_noteq hkp] using he
  · intro pi n d hp hn hd
    rw [dispatchState_updateDir a hp hn hd]
    refine ⟨fun hpi => ?_, fun name => ?_⟩
    · simp [S3MetaData.entry, Function.update_noteq hpi]
    · simp only [S3MetaData.entry, Function.update_same, Option.some_bind,
        S3Node.getDirData_newChildNodeOfParent]
      split_ifs <;> rfl

/-- In the store holding `/a` (inode 2) and the file `/a/x`, `mkdir /b` as inode 3 keeps
`/a`'s entry for `x`, enters `b` in the root and leaves inode 3 with no entries. -/
theorem updateDir_entries_mkdir :
    let attr (ino : INum) (kind : SFlag) : FileAttr := ⟨ino, kind, 0, 0o755, 0, 0⟩
    let s := dispatchState (dispatchState (.root "/" (attr 1 .S_IFDIR) 2)
      (.UpdateDir ⟨"/", "a", attr 2 .S_IFDIR, none⟩))
      (.UpdateDir ⟨"//a", "x", attr 5 .S_IFREG, none⟩)
    let a : UpdateDirArgs := ⟨"/", "b", attr 3 .S_IFDIR, none⟩
    (dispatchState s (.UpdateDir a)).entry 2 "x" = s.entry 2 "x" ∧
      (dispatchState s (.UpdateDir a)).entry 1 "b" = some a.entry ∧
      (dispatchState s (.UpdateDir a)).entry 3 "y" = none := by
  intro attr s a
  have h := updateDir_entries s a
  obtain ⟨e, he⟩ : ∃ e, s.entry 2 "x" = some e := ⟨_, rfl⟩
  have hroot := h.2 1 _ _ rfl rfl rfl
  rw [he]
  exact ⟨h.1 2 "x" e he (by decide) fun _ => by decide, hroot.1 (by decide), hroot.2 "y"⟩

/-- Re-delivery is not harmless: create `/a` (inode 2) and the file `/a/x` in it,
then deliver `UpdateDir("/", "a")` with inode 2 again. Inode 2 already holds the node
at `//a`, yet the request replaces it by an empty directory and the entry for `x`
is gone. -/
theorem updateDir_redelivery_drops_entries :
    ¬ ∀ rootPath rootAttr curInum meta (a : UpdateDirArgs),
      Reachable rootPath rootAttr curInum meta → a.Fresh meta →
      ∀ k name e, meta.entry k name = some e →
        ¬ (meta.path2inum a.parentPath = some k ∧ name = a.childName) →
        ∃ e', (dispatchState meta (.UpdateDir a)).entry k name = some e' ∧ e'.ino = e.ino := by
  intro h
  let attr (ino : INum) (kind : SFlag) : FileAttr := ⟨ino, kind, 0, 0o755, 0, 0⟩
  let s₁ := dispatchState (.root "/" (attr 1 .S_IFDIR) 2)
    (.UpdateDir ⟨"/", "a", attr 2 .S_IFDIR, none⟩)
  let s₂ := dispatchState s₁ (.UpdateDir ⟨"//a", "x", attr 5 .S_IFREG, none⟩)
  have hx := h "/" (attr 1 .S_IFDIR) 2 s₂ ⟨"/", "a", attr 2 .S_IFDIR, none⟩
    (.step _ (.step _ .root fun c hc => by cases hc) fun c hc => by cases hc)
    (fun c hc => by cases hc; rfl) 2 "x" _ rfl (fun ⟨hk, _⟩ => by cases hk)
  obtain ⟨e', he', -⟩ := hx
  cases he'

end DatenLord.Dist
