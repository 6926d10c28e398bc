import DatenLord.Dist.Server

/-!
# The metadata-graph invariants

Invariants (1)–(3) of the two maps and the requests that keep them. Every request
but `UpdateDir` only replaces a node by one with the same path, inode and kind and
no new entries. An `UpdateDir` replaces whatever its child inode held by a fresh
child: the path index survives that when the old node sat at the child's path, and
the directory entries survive it only when the old node was also of the child's
kind, since other directories' entries may still name the old node's kind.
-/
namespace DatenLord.Dist

namespace S3MetaData

/-- Invariants (1) and (3): every indexed path names the node stored under its
inode, and every node is stored under its own inode number. -/
structure PathIndexed (meta : S3MetaData) : Prop where
  path_node : ∀ p i, meta.path2inum p = some i → ∃ n, meta.cache i = some n ∧ n.fullPath = p
  key_ino : ∀ i n, meta.cache i = some n → n.getIno = i

/-- Invariants (1)–(3): with (2), every entry of a directory leads to the node at the
joined path, of the entry's kind. -/
structure Consistent (meta : S3MetaData) extends PathIndexed meta : Prop where
  entry_node : ∀ k n d name e, meta.cache k = some n → n.getDirData = some d → d name = some e →
    ∃ c, meta.cache e.ino = some c ∧ c.fullPath = joinPath n.fullPath name ∧ c.getType = e.fileType

variable {meta : S3MetaData} {p q path : String} {i k pi : INum} {n n' : S3Node} {d : DirMap}

theorem PathIndexed.fullPath_eq (h : meta.PathIndexed) (hp : meta.path2inum p = some i)
    (hn : meta.cache i = some n) : n.fullPath = p := by
  obtain ⟨m, hm, rfl⟩ := h.path_node p i hp
  rw [hn] at hm
  cases hm
  rfl

/-- Two paths indexed under one inode are the same path. -/
theorem PathIndexed.path_inj (h : meta.PathIndexed) (hp : meta.path2inum p = some i)
    (hq : meta.path2inum q = some i) : p = q := by
  obtain ⟨m, hm, rfl⟩ := h.path_node p i hp
  exact h.fullPath_eq hq hm

theorem root_consistent (rootPath : String) (attr : FileAttr) (curInum : UInt32) :
    (root rootPath attr curInum).Consistent where
  path_node p i h := by
    simp only [root, Function.update_apply] at h ⊢
    split_ifs at h with hp
    cases h
    simp [hp]
  key_ino i n h := by
    simp only [root, Function.update_apply] at h
    split_ifs at h with hi
    cases h
    exact hi.symm
  entry_node k n d name e hk hd he := by
    simp only [root, Function.update_apply] at hk
    split_ifs at hk
    cases hk
    cases hd
    cases he

/-- Replacing the node under `k` by one with the same full path and inode keeps the
path index. -/
theorem PathIndexed.replace (h : meta.PathIndexed) (hk : meta.cache k = some n)
    (hfp : n'.fullPath = n.fullPath) (hino : n'.getIno = n.getIno) :
    ({ meta with cache := Function.update meta.cache k (some n') } : S3MetaData).PathIndexed where
  path_node p i hp := by
    obtain ⟨c, hc, rfl⟩ := h.path_node p i hp
    by_cases hik : i = k
    · subst hik
      rw [hk] at hc
      cases hc
      exact ⟨n', Function.update_same _ _ _, hfp⟩
    · exact ⟨c, by simp [hik, hc], rfl⟩
  key_ino j c hc := by
    simp only [Function.update_apply] at hc
    split_ifs at hc with hjk
    · cases hc
      rw [hjk, hino]
      exact h.key_ino k n hk
    · exact h.key_ino j c hc

/-- An entry that led to a node still leads to one, of the same path and kind, in a
cache that keeps every node's path and kind. -/
theorem Consistent.entry_kept (h : meta.Consistent) {C : INum → Option S3Node}
    (kept : ∀ j c, meta.cache j = some c → ∃ c', C j = some c' ∧ c'.fullPath = c.fullPath ∧
      c'.getType = c.getType)
    {name : String} {e : DirEntry} (hk : meta.cache k = some n) (hd : n.getDirData = some d)
    (he : d name = some e) :
    ∃ c', C e.ino = some c' ∧ c'.fullPath = joinPath n.fullPath name ∧ c'.getType = e.fileType := by
  obtain ⟨c₀, hc₀, hp₀, ht₀⟩ := h.entry_node k n d name e hk hd he
  obtain ⟨c', hc', hp', ht'⟩ := kept _ c₀ hc₀
  exact ⟨c', hc', hp'.trans hp₀, ht'.trans ht₀⟩

/-- Replacing the node under `k` by one with the same full path, inode and kind,
whose entries are among the old node's, keeps the invariants. -/
theorem Consistent.replace (h : meta.Consistent) (hk : meta.cache k = some n)
    (hfp : n'.fullPath = n.fullPath) (hino : n'.getIno = n.getIno) (hty : n'.getType = n.getType)
    (hsub : ∀ d' name e, n'.getDirData = some d' → d' name = some e →
      ∃ d, n.getDirData = some d ∧ d name = some e) :
    ({ meta with cache := Function.update meta.cache k (some n') } : S3MetaData).Consistent := by
  have kept : ∀ j c, meta.cache j = some c → ∃ c',
      Function.update meta.cache k (some n') j = some c' ∧ c'.fullPath = c.fullPath ∧
        c'.getType = c.getType := by
    intro j c hc
    by_cases hjk : j = k
    · subst hjk
      rw [hk] at hc
      cases hc
      exact ⟨n', Function.update_same _ _ _, hfp, hty⟩
    · exact ⟨c, by simp [hjk, hc], rfl, rfl⟩
  refine ⟨h.toPathIndexed.replace hk hfp hino, ?_⟩
  intro j c d' name e hc hd' he
  simp only [Function.update_apply] at hc
  split_ifs at hc with hjk
  · cases hc
    obtain ⟨d, hd, hde⟩ := hsub d' name e hd' he
    rw [hfp]
    exact h.entry_kept kept hk hd hde
  · exact h.entry_kept kept hc hd' he

theorem PathIndexed.removeDirEntry (h : meta.PathIndexed) (a : RemoveDirEntryArgs) :
    (dispatchState meta (.RemoveDirEntry a)).PathIndexed := by
  obtain ⟨-, hs⟩ | ⟨pi, n, d, -, hn, -, hs⟩ := dispatchState_removeDirEntry_cases meta a <;> rw [hs]
  · exact h
  · exact h.replace hn rfl rfl

theorem Consistent.removeDirEntry (h : meta.Consistent) (a : RemoveDirEntryArgs) :
    (dispatchState meta (.RemoveDirEntry a)).Consistent := by
  obtain ⟨-, hs⟩ | ⟨pi, n, d, -, hn, hd, hs⟩ := dispatchState_removeDirEntry_cases meta a <;> rw [hs]
  · exact h
  refine h.replace hn rfl rfl (S3Node.getType_of_getDirData hd).symm ?_
  rintro d' name e ⟨⟩ he
  by_cases hname : name = a.childName
  · subst hname
    simp at he
  · exact ⟨d, hd, by simpa [hname] using he⟩

theorem PathIndexed.pushFileAttr (h : meta.PathIndexed) (path : String) (attr : FileAttr) :
    (dispatchState meta (.PushFileAttr path attr)).PathIndexed := by
  obtain ⟨-, hs⟩ | ⟨i, n, -, hn, hs⟩ := dispatchState_pushFileAttr_cases meta path attr <;> rw [hs]
  · exact h
  · exact h.replace hn rfl rfl

theorem Consistent.pushFileAttr (h : meta.Consistent) (path : String) (attr : FileAttr) :
    (dispatchState meta (.PushFileAttr path attr)).Consistent := by
  obtain ⟨-, hs⟩ | ⟨i, n, -, hn, hs⟩ := dispatchState_pushFileAttr_cases meta path attr <;> rw [hs]
  · exact h
  · exact h.replace hn rfl rfl rfl fun d' name e hd' he => ⟨d', hd', he⟩

end S3MetaData

/-- An `UpdateDir` whose child inode is absent from the cache or already holds the
node at the child's full path: what `update_dir` needs to keep the path index. -/
def UpdateDirArgs.Fresh (a : UpdateDirArgs) (meta : S3MetaData) : Prop :=
  ∀ c, meta.cache a.childAttr.ino = some c → c.fullPath = joinPath a.parentPath a.childName

/-- `Fresh`, and a node already under the child inode is of the child's kind. -/
def UpdateDirArgs.SameKind (a : UpdateDirArgs) (meta : S3MetaData) : Prop :=
  ∀ c, meta.cache a.childAttr.ino = some c →
    c.fullPath = joinPath a.parentPath a.childName ∧ c.getType = a.childAttr.kind

namespace S3MetaData

variable {meta : S3MetaData} {a : UpdateDirArgs} {pi : INum} {n : S3Node} {d : DirMap}

/-- A fresh child inode is never the parent's: the parent sits at the parent path. -/
theorem PathIndexed.childIno_ne (h : meta.PathIndexed) (hf : a.Fresh meta)
    (hp : meta.path2inum a.parentPath = some pi) (hn : meta.cache pi = some n) :
    a.childAttr.ino ≠ pi := by
  rintro heq
  exact joinPath_ne_self a.parentPath a.childName
    ((hf n (heq ▸ hn)).symm.trans (h.fullPath_eq hp hn))

theorem PathIndexed.updateDir (h : meta.PathIndexed) (hf : a.Fresh meta) :
    (dispatchState meta (.UpdateDir a)).PathIndexed := by
  obtain ⟨-, hs⟩ | ⟨pi, n, d, hp, hn, -, hs⟩ := dispatchState_updateDir_cases meta a <;> rw [hs]
  · exact h
  have hfp : n.fullPath = a.parentPath := h.fullPath_eq hp hn
  constructor
  · intro p i hpi
    simp only [Function.update_apply] at hpi ⊢
    split_ifs at hpi with ht
    · cases hpi
      exact ⟨_, if_pos rfl, ht.symm⟩
    · obtain ⟨c, hc, rfl⟩ := h.path_node p i hpi
      split_ifs with h₁ h₂
      · subst h₁
        exact absurd (by rw [hf c hc, hfp]) ht
      · subst h₂
        rw [hn] at hc
        cases hc
        exact ⟨_, rfl, rfl⟩
      · exact ⟨c, hc, rfl⟩
  · intro k c hc
    simp only [Function.update_apply] at hc
    split_ifs at hc with h₁ h₂
    · cases hc
      exact h₁.symm
    · cases hc
      exact h₂ ▸ h.key_ino pi n hn
    · exact h.key_ino k c hc

/-- Under `SameKind`, an `update_dir` keeps under every key a node with the same full
path and kind. -/
theorem PathIndexed.updateDir_kept (h : meta.PathIndexed) (hs : a.SameKind meta)
    (hp : meta.path2inum a.parentPath = some pi) (hn : meta.cache pi = some n)
    (hd : n.getDirData = some d) {j : INum} {c : S3Node} (hc : meta.cache j = some c) :
    ∃ c', (dispatchState meta (.UpdateDir a)).cache j = some c' ∧ c'.fullPath = c.fullPath ∧
      c'.getType = c.getType := by
  have hfp : n.fullPath = a.parentPath := h.fullPath_eq hp hn
  rw [dispatchState_updateDir a hp hn hd]
  simp only [Function.update_apply]
  split_ifs with h₁ h₂
  · subst h₁
    obtain ⟨hcf, hck⟩ := hs c hc
    exact ⟨_, rfl, by simp [hcf, hfp], by simp [hck]⟩
  · subst h₂
    rw [hn] at hc
    cases hc
    exact ⟨_, rfl, rfl, (S3Node.getType_of_getDirData hd).symm⟩
  · exact ⟨c, hc, rfl, rfl⟩

/-- An `UpdateDir` that keeps the path and kind of what its child inode held keeps
invariant (2): the fresh child is a new node with no entries, and the parent keeps its
entries and gains the child's. -/
theorem Consistent.updateDir (h : meta.Consistent) (hs : a.SameKind meta) :
    (dispatchState meta (.UpdateDir a)).Consistent := by
  have hf : a.Fresh meta := fun c hc => (hs c hc).1
  refine ⟨h.toPathIndexed.updateDir hf, ?_⟩
  obtain ⟨-, hs'⟩ | ⟨pi, n, d, hp, hn, hd, hs'⟩ := dispatchState_updateDir_cases meta a
  · rw [hs']
    exact h.entry_node
  · have kept := fun j c (hc : meta.cache j = some c) =>
      h.toPathIndexed.updateDir_kept hs hp hn hd hc
    intro k c d' name e hc hd' he
    rw [hs'] at kept hc ⊢
    simp only [Function.update_apply] at hc
    split_ifs at hc with h₁ h₂
    · cases hc
      simp only [S3Node.getDirData_newChildNodeOfParent] at hd'
      split_ifs at hd'
      cases hd'
      cases he
    · cases hc
      cases hd'
      by_cases hname : name = a.childName
      · subst hname
        simp only [Function.update_same, Option.some.injEq] at he
        subst he
        exact ⟨_, if_pos rfl, rfl, by simp [UpdateDirArgs.entry]⟩
      · rw [Function.update_noteq hname] at he
        exact (h.entry_kept kept hn hd he :)
    · exact h.entry_kept kept hc hd' he

end S3MetaData

/-- Requests served one after another, each task run to its end. -/
def dispatchAll (meta : S3MetaData) : List DistRequest → S3MetaData
  | [] => meta
  | req :: reqs => dispatchAll (dispatchState meta req) reqs

/-- A run in which every `UpdateDir`, in the state it arrives in, keeps the path and
kind of whatever its child inode holds. -/
def KeepsKinds : S3MetaData → List DistRequest → Prop
  | _, [] => True
  | meta, req :: reqs =>
    (∀ a, req = .UpdateDir a → a.SameKind meta) ∧ KeepsKinds (dispatchState meta req) reqs

/-- Invariants (1)–(3) hold after every run that keeps kinds. -/
theorem dispatchAll_consistent (meta : S3MetaData) (reqs : List DistRequest)
    (hc : meta.Consistent) (hk : KeepsKinds meta reqs) : (dispatchAll meta reqs).Consistent := by
  induction reqs generalizing meta with
  | nil => exact hc
  | cons req reqs ih =>
    refine ih _ ?_ hk.2
    cases req with
    | UpdateDir a => exact hc.updateDir (hk.1 a rfl)
    | RemoveDirEntry a => exact hc.removeDirEntry a
    | PushFileAttr path attr => exact hc.pushFileAttr path attr
    | LoadDir path => rwa [dispatchState_loadDir]
    | TurnOff | GetFileAttr _ | GetInodeNum => exact hc

theorem dispatchAll_consistent_mkdir_touch :
    (dispatchAll (S3MetaData.root "/" ⟨1, .S_IFDIR, 0, 0o755, 0, 0⟩ 2)
      [.UpdateDir ⟨"/", "a", ⟨2, .S_IFDIR, 0, 0o755, 0, 0⟩, none⟩,
        .UpdateDir ⟨"//a", "x", ⟨5, .S_IFREG, 0, 0o644, 0, 0⟩, none⟩]).Consistent :=
  dispatchAll_consistent _ _ (S3MetaData.root_consistent _ _ _)
    ⟨fun a ha c hc => (by cases ha; cases hc), fun a ha c hc => (by cases ha; cases hc), trivial⟩

/-- The metadata handlers keep invariants (1)–(3), provided an `UpdateDir` that
replaces a node keeps its path and kind. -/
theorem dispatchState_consistent (meta : S3MetaData) (req : DistRequest) (hc : meta.Consistent)
    (hr : ∀ a, req = .UpdateDir a → a.SameKind meta) : (dispatchState meta req).Consistent :=
  dispatchAll_consistent meta [req] hc ⟨hr, trivial⟩

theorem root_mkdir_consistent :
    (dispatchState (S3MetaData.root "/" ⟨1, .S_IFDIR, 0, 0o755, 0, 0⟩ 2)
      (.UpdateDir ⟨"/", "a", ⟨2, .S_IFDIR, 0, 0o755, 0, 0⟩, none⟩)).Consistent :=
  dispatchState_consistent _ _ (S3MetaData.root_consistent _ _ _) fun a ha c hc => by
    cases ha
    simp [S3MetaData.root] at hc

/-- `Fresh` alone does not keep invariant (2): the node a child inode holds at the
child's path may be of another kind than the child. Create `/a` (inode 2) and the file
`/a/x` (inode 5), then re-create `/a` as inode 3, which leaves node 2 and its entry for
`x` in the cache; each of these child inodes is absent when its `UpdateDir` arrives. An
`UpdateDir` that makes `/a/x` a directory under inode 5 finds that inode at the child's
path, yet node 2's entry still says `x` is a regular file. -/
theorem updateDir_breaks_consistency :
    ¬ ∀ (meta : S3MetaData) (req : DistRequest), meta.Consistent →
      (∀ a, req = .UpdateDir a → a.Fresh meta) → (dispatchState meta req).Consistent := by
  intro h
  let attr (ino : INum) (kind : SFlag) : FileAttr := ⟨ino, kind, 0, 0o755, 0, 0⟩
  let s₀ := S3MetaData.root "/" (attr 1 .S_IFDIR) 2
  let s₁ := dispatchState s₀ (.UpdateDir ⟨"/", "a", attr 2 .S_IFDIR, none⟩)
  let s₂ := dispatchState s₁ (.UpdateDir ⟨"//a", "x", attr 5 .S_IFREG, none⟩)
  let s₃ := dispatchState s₂ (.UpdateDir ⟨"/", "a", attr 3 .S_IFDIR, none⟩)
  have hs₃ : s₃.Consistent :=
    (((S3MetaData.root_consistent _ _ _).updateDir fun c hc => by cases hc).updateDir
      fun c hc => by cases hc).updateDir fun c hc => by cases hc
  have hs₄ := h s₃ (.UpdateDir ⟨"//a", "x", attr 5 .S_IFDIR, none⟩) hs₃ fun a ha c hc => by
    cases ha
    cases hc
    rfl
  obtain ⟨c, hc, -, ht⟩ := hs₄.entry_node 2 _ _ "x" _ rfl rfl rfl
  cases hc
  cases ht

end DatenLord.Dist
