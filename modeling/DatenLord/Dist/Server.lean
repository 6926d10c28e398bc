import DatenLord.Dist.Node
import Mathlib.Data.Option.Basic

/-!
# The peer server's metadata handlers

`dispatch` of `server.rs` over the requests that read or write the metadata maps.
A handler that panics (a directory operation on a node that is not a directory)
is `none`; its task dies before it has written anything, so the maps stay as they
were. The content-cache requests (`Invalidate`, `CheckAvailable`, `Read`) and the
requests delegated to `rename_local` and `remove_node_local` are outside this
model.
-/
namespace DatenLord.Dist

/-- `UpdateDirArgs`. -/
structure UpdateDirArgs where
  parentPath : String
  childName : String
  childAttr : FileAttr
  targetPath : Option String

/-- `RemoveDirEntryArgs`. -/
structure RemoveDirEntryArgs where
  parentPath : String
  childName : String

/-- `DistRequest`, the requests modelled here. -/
inductive DistRequest where
  | TurnOff
  | LoadDir (path : String)
  | UpdateDir (args : UpdateDirArgs)
  | RemoveDirEntry (args : RemoveDirEntryArgs)
  | GetFileAttr (path : String)
  | PushFileAttr (path : String) (attr : FileAttr)
  | GetInodeNum

/-- The replies of `response.rs`; `UpdateDir` is also what `remove_dir_entry`
answers. -/
inductive DistResponse where
  | TurnOff
  | LoadDir (dir : Option DirMap)
  | UpdateDir
  | GetAttr (attr : Option FileAttr)
  | PushAttr
  | InodeNum (inum : UInt32)

/-- `load_dir`. -/
def loadDir (meta : S3MetaData) (path : String) : Option DistResponse :=
  match meta.path2inum path with
  | none => some (.LoadDir none)
  | some inum =>
    match meta.cache inum with
    | none => some (.LoadDir none)
    | some node => (fun dir => .LoadDir (some dir)) <$> node.getDirData

/-- `update_dir`: the child node is built from the parent, entered in the parent's
directory map, indexed under its full path and inserted under its inode, replacing
whatever was there. -/
def updateDir (meta : S3MetaData) (args : UpdateDirArgs) : Option (DistResponse × S3MetaData) :=
  match meta.path2inum args.parentPath with
  | none => some (.UpdateDir, meta)
  | some parentInum =>
    match meta.cache parentInum with
    | none => some (.UpdateDir, meta)
    | some parentNode =>
      let childNode :=
        parentNode.newChildNodeOfParent args.childName args.childAttr args.targetPath
      let childIno := childNode.getIno
      let entry : DirEntry := ⟨childIno, args.childName, childNode.getType⟩
      (parentNode.modifyDirData (Function.update · args.childName (some entry))).map
        fun parentNode =>
          (.UpdateDir,
            { meta with
              path2inum := Function.update meta.path2inum childNode.fullPath (some childIno)
              cache := Function.update (Function.update meta.cache parentInum (some parentNode))
                childIno (some childNode) })

/-- `remove_dir_entry`: only the parent's directory map changes; the path index is
only read. -/
def removeDirEntry (meta : S3MetaData) (args : RemoveDirEntryArgs) :
    Option (DistResponse × S3MetaData) :=
  match meta.path2inum args.parentPath with
  | none => some (.UpdateDir, meta)
  | some parentInum =>
    match meta.cache parentInum with
    | none => some (.UpdateDir, meta)
    | some parentNode =>
      (parentNode.modifyDirData (Function.update · args.childName none)).map fun parentNode =>
        (.UpdateDir, { meta with cache := Function.update meta.cache parentInum (some parentNode) })

/-- `get_attr`. -/
def getAttr (meta : S3MetaData) (path : String) : DistResponse :=
  match meta.path2inum path with
  | none => .GetAttr none
  | some inum =>
    match meta.cache inum with
    | none => .GetAttr none
    | some node => .GetAttr (some node.getAttr)

/-- `push_attr`: the pushed attributes replace the node's, its inode number kept. -/
def pushAttr (meta : S3MetaData) (path : String) (attr : FileAttr) :
    DistResponse × S3MetaData :=
  match meta.path2inum path with
  | none => (.PushAttr, meta)
  | some inum =>
    match meta.cache inum with
    | none => (.PushAttr, meta)
    | some node =>
      (.PushAttr, { meta with
        cache := Function.update meta.cache inum
          (some (node.setAttr { attr with ino := node.getAttr.ino })) })

/-- `dispatch`: `Ok(false)` after `TurnOff`, `Ok(true)` after every other request,
with the reply written and the metadata left. -/
def dispatch (meta : S3MetaData) : DistRequest → Option (Bool × DistResponse × S3MetaData)
  | .TurnOff => some (false, .TurnOff, meta)
  | .LoadDir path => (loadDir meta path).map fun r => (true, r, meta)
  | .UpdateDir args => (updateDir meta args).map fun p => (true, p)
  | .RemoveDirEntry args => (removeDirEntry meta args).map fun p => (true, p)
  | .GetFileAttr path => some (true, getAttr meta path, meta)
  | .PushFileAttr path attr => some (true, pushAttr meta path attr)
  | .GetInodeNum => some (true, .InodeNum meta.curInum, meta)

/-- The metadata once a connection's task has ended: what `dispatch` left, or the
maps as they were where the task panicked. -/
def dispatchState (meta : S3MetaData) (req : DistRequest) : S3MetaData :=
  ((dispatch meta req).map fun p => p.2.2).getD meta

section Spec

variable {meta : S3MetaData} {pi : INum} {n : S3Node} {d : DirMap}

@[simp] theorem dispatchState_turnOff (meta : S3MetaData) : dispatchState meta .TurnOff = meta :=
  rfl

@[simp] theorem dispatchState_getInodeNum (meta : S3MetaData) :
    dispatchState meta .GetInodeNum = meta := rfl

@[simp] theorem dispatchState_getFileAttr (meta : S3MetaData) (path : String) :
    dispatchState meta (.GetFileAttr path) = meta := rfl

@[simp] theorem dispatchState_loadDir (meta : S3MetaData) (path : String) :
    dispatchState meta (.LoadDir path) = meta := by
  simp only [dispatchState, dispatch]
  cases loadDir meta path <;> rfl

/-- The parent an `update_dir` or `remove_dir_entry` writes to: the node its path
resolves to, with that node's directory map. -/
def S3MetaData.parentDir (meta : S3MetaData) (path : String) : Option (INum × S3Node × DirMap) :=
  (meta.path2inum path).bind fun i =>
    (meta.cache i).bind fun n => n.getDirData.map fun d => (i, n, d)

theorem S3MetaData.parentDir_eq_some {path : String} :
    meta.parentDir path = some (pi, n, d) ↔
      meta.path2inum path = some pi ∧ meta.cache pi = some n ∧ n.getDirData = some d := by
  simp only [parentDir, Option.bind_eq_some, Option.map_eq_some', Prod.mk.injEq]
  constructor
  · rintro ⟨i, hi, m, hm, d', hd, rfl, rfl, rfl⟩
    exact ⟨hi, hm, hd⟩
  · rintro ⟨hi, hm, hd⟩
    exact ⟨pi, hi, n, hm, d, hd, rfl, rfl, rfl⟩

/-- The entry `update_dir` puts in the parent's map. -/
def UpdateDirArgs.entry (a : UpdateDirArgs) : DirEntry := ⟨a.childAttr.ino, a.childName, a.childAttr.kind⟩

/-- An `update_dir` whose parent is a directory: the parent gains the entry, the
child's path is indexed and the child node stored under its inode. -/
theorem dispatchState_updateDir (a : UpdateDirArgs) (hp : meta.path2inum a.parentPath = some pi)
    (hn : meta.cache pi = some n) (hd : n.getDirData = some d) :
    dispatchState meta (.UpdateDir a) =
      { meta with
        path2inum := Function.update meta.path2inum (joinPath n.fullPath a.childName)
          (some a.childAttr.ino)
        cache := Function.update
          (Function.update meta.cache pi
            (some { n with data := .Directory (Function.update d a.childName (some a.entry)) }))
          a.childAttr.ino (some (n.newChildNodeOfParent a.childName a.childAttr a.targetPath)) } := by
  simp [dispatchState, dispatch, updateDir, hp, hn, S3Node.modifyDirData, hd, UpdateDirArgs.entry]

theorem cache_updateDir_parent (a : UpdateDirArgs) (hp : meta.path2inum a.parentPath = some pi)
    (hn : meta.cache pi = some n) (hd : n.getDirData = some d) (hpi : pi ≠ a.childAttr.ino) :
    (dispatchState meta (.UpdateDir a)).cache pi =
      some { n with data := .Directory (Function.update d a.childName (some a.entry)) } := by
  rw [dispatchState_updateDir a hp hn hd]
  simp [Function.update_noteq hpi]

theorem cache_updateDir_of_ne (a : UpdateDirArgs) (hp : meta.path2inum a.parentPath = some pi)
    (hn : meta.cache pi = some n) (hd : n.getDirData = some d) {k : INum} (hk : k ≠ pi)
    (hk' : k ≠ a.childAttr.ino) : (dispatchState meta (.UpdateDir a)).cache k = meta.cache k := by
  rw [dispatchState_updateDir a hp hn hd]
  simp [Function.update_noteq hk, Function.update_noteq hk']

/-- An `update_dir` whose parent does not resolve answers and writes nothing; one
whose parent is not a directory panics before writing. -/
theorem dispatchState_updateDir_of_parentDir (a : UpdateDirArgs)
    (h : meta.parentDir a.parentPath = none) : dispatchState meta (.UpdateDir a) = meta := by
  simp only [S3MetaData.parentDir, Option.bind_eq_none, Option.map_eq_none'] at h
  simp only [dispatchState, dispatch, updateDir]
  split
  · rfl
  · rename_i pi hp
    split
    · rfl
    · rename_i n hn
      simp [S3Node.modifyDirData, h pi hp n hn]

/-- A `remove_dir_entry` whose parent is a directory drops the entry from its map. -/
theorem dispatchState_removeDirEntry (a : RemoveDirEntryArgs)
    (hp : meta.path2inum a.parentPath = some pi) (hn : meta.cache pi = some n)
    (hd : n.getDirData = some d) :
    dispatchState meta (.RemoveDirEntry a) =
      { meta with
        cache := Function.update meta.cache pi
          (some { n with data := .Directory (Function.update d a.childName none) }) } := by
  simp [dispatchState, dispatch, removeDirEntry, hp, hn, S3Node.modifyDirData, hd]

theorem cache_removeDirEntry_parent (a : RemoveDirEntryArgs)
    (hp : meta.path2inum a.parentPath = some pi) (hn : meta.cache pi = some n)
    (hd : n.getDirData = some d) :
    (dispatchState meta (.RemoveDirEntry a)).cache pi =
      some { n with data := .Directory (Function.update d a.childName none) } := by
  rw [dispatchState_removeDirEntry a hp hn hd]
  simp

theorem cache_removeDirEntry_of_ne (a : RemoveDirEntryArgs)
    (hp : meta.path2inum a.parentPath = some pi) (hn : meta.cache pi = some n)
    (hd : n.getDirData = some d) {k : INum} (hk : k ≠ pi) :
    (dispatchState meta (.RemoveDirEntry a)).cache k = meta.cache k := by
  rw [dispatchState_removeDirEntry a hp hn hd]
  simp [Function.update_noteq hk]

theorem dispatchState_removeDirEntry_of_parentDir (a : RemoveDirEntryArgs)
    (h : meta.parentDir a.parentPath = none) :
    dispatchState meta (.RemoveDirEntry a) = meta := by
  simp only [S3MetaData.parentDir, Option.bind_eq_none, Option.map_eq_none'] at h
  simp only [dispatchState, dispatch, removeDirEntry]
  split
  · rfl
  · rename_i pi hp
    split
    · rfl
    · rename_i n hn
      simp [S3Node.modifyDirData, h pi hp n hn]

/-- A `push_attr` to a cached node replaces its attributes, inode number kept. -/
theorem dispatchState_pushFileAttr (path : String) (attr : FileAttr)
    (hp : meta.path2inum path = some pi) (hn : meta.cache pi = some n) :
    dispatchState meta (.PushFileAttr path attr) =
      { meta with
        cache := Function.update meta.cache pi (some (n.setAttr { attr with ino := n.getIno })) } := by
  simp [dispatchState, dispatch, pushAttr, hp, hn, S3Node.getAttr, S3Node.getIno]

theorem cache_pushFileAttr_of_ne (path : String) (attr : FileAttr)
    (hp : meta.path2inum path = some pi) (hn : meta.cache pi = some n) {k : INum} (hk : k ≠ pi) :
    (dispatchState meta (.PushFileAttr path attr)).cache k = meta.cache k := by
  rw [dispatchState_pushFileAttr path attr hp hn]
  simp [Function.update_noteq hk]

theorem dispatchState_pushFileAttr_of_cache (path : String) (attr : FileAttr)
    (h : ∀ i, meta.path2inum path = some i → meta.cache i = none) :
    dispatchState meta (.PushFileAttr path attr) = meta := by
  simp only [dispatchState, dispatch, pushAttr]
  split
  · rfl
  · rename_i i hp
    simp [h i hp]

/-- What an `UpdateDir` can do: nothing, where its parent path does not resolve to a
directory, or the writes of `dispatchState_updateDir`. -/
theorem dispatchState_updateDir_cases (meta : S3MetaData) (a : UpdateDirArgs) :
    meta.parentDir a.parentPath = none ∧ dispatchState meta (.UpdateDir a) = meta ∨
      ∃ pi n d, meta.path2inum a.parentPath = some pi ∧ meta.cache pi = some n ∧
        n.getDirData = some d ∧
        dispatchState meta (.UpdateDir a) =
          { meta with
            path2inum := Function.update meta.path2inum (joinPath n.fullPath a.childName)
              (some a.childAttr.ino)
            cache := Function.update
              (Function.update meta.cache pi
                (some { n with data := .Directory (Function.update d a.childName (some a.entry)) }))
              a.childAttr.ino (some (n.newChildNodeOfParent a.childName a.childAttr a.targetPath)) } := by
  cases hpd : meta.parentDir a.parentPath with
  | none => exact .inl ⟨rfl, dispatchState_updateDir_of_parentDir a hpd⟩
  | some r =>
    obtain ⟨pi, n, d⟩ := r
    obtain ⟨hp, hn, hd⟩ := S3MetaData.parentDir_eq_some.1 hpd
    exact .inr ⟨pi, n, d, hp, hn, hd, dispatchState_updateDir a hp hn hd⟩

/-- What a `RemoveDirEntry` can do: nothing, or drop one entry of its parent. -/
theorem dispatchState_removeDirEntry_cases (meta : S3MetaData) (a : RemoveDirEntryArgs) :
    meta.parentDir a.parentPath = none ∧ dispatchState meta (.RemoveDirEntry a) = meta ∨
      ∃ pi n d, meta.path2inum a.parentPath = some pi ∧ meta.cache pi = some n ∧
        n.getDirData = some d ∧
        dispatchState meta (.RemoveDirEntry a) =
          { meta with
            cache := Function.update meta.cache pi
              (some { n with data := .Directory (Function.update d a.childName none) }) } := by
  cases hpd : meta.parentDir a.parentPath with
  | none => exact .inl ⟨rfl, dispatchState_removeDirEntry_of_parentDir a hpd⟩
  | some r =>
    obtain ⟨pi, n, d⟩ := r
    obtain ⟨hp, hn, hd⟩ := S3MetaData.parentDir_eq_some.1 hpd
    exact .inr ⟨pi, n, d, hp, hn, hd, dispatchState_removeDirEntry a hp hn hd⟩

/-- What a `PushFileAttr` can do: nothing, where its path names no cached node, or
replace that node's attributes. -/
theorem dispatchState_pushFileAttr_cases (meta : S3MetaData) (path : String) (attr : FileAttr) :
    (∀ i, meta.path2inum path = some i → meta.cache i = none) ∧
        dispatchState meta (.PushFileAttr path attr) = meta ∨
      ∃ i n, meta.path2inum path = some i ∧ meta.cache i = some n ∧
        dispatchState meta (.PushFileAttr path attr) =
          { meta with
            cache := Function.update meta.cache i
              (some (n.setAttr { attr with ino := n.getIno })) } := by
  obtain hp | ⟨i, hp⟩ := Option.eq_none_or_eq_some (meta.path2inum path)
  · have h : ∀ i, meta.path2inum path = some i → meta.cache i = none := by simp [hp]
    exact .inl ⟨h, dispatchState_pushFileAttr_of_cache path attr h⟩
  obtain hn | ⟨n, hn⟩ := Option.eq_none_or_eq_some (meta.cache i)
  · have h : ∀ i', meta.path2inum path = some i' → meta.cache i' = none := by simp [hp, hn]
    exact .inl ⟨h, dispatchState_pushFileAttr_of_cache path attr h⟩
  · exact .inr ⟨i, n, hp, hn, dispatchState_pushFileAttr path attr hp hn⟩

/-- `RemoveDirEntry` never touches the path index. -/
@[simp] theorem path2inum_removeDirEntry (meta : S3MetaData) (a : RemoveDirEntryArgs) :
    (dispatchState meta (.RemoveDirEntry a)).path2inum = meta.path2inum := by
  obtain ⟨-, h⟩ | ⟨pi, n, d, -, -, -, h⟩ := dispatchState_removeDirEntry_cases meta a <;> rw [h]

@[simp] theorem path2inum_pushFileAttr (meta : S3MetaData) (path : String) (attr : FileAttr) :
    (dispatchState meta (.PushFileAttr path attr)).path2inum = meta.path2inum := by
  obtain ⟨-, h⟩ | ⟨i, n, -, -, h⟩ := dispatchState_pushFileAttr_cases meta path attr <;> rw [h]

/-- `RemoveDirEntry` changes no attribute `GetFileAttr` answers. -/
theorem getAttr_removeDirEntry (meta : S3MetaData) (a : RemoveDirEntryArgs) (path : String) :
    getAttr (dispatchState meta (.RemoveDirEntry a)) path = getAttr meta path := by
  obtain ⟨-, h⟩ | ⟨pi, n, d, -, hn, -, h⟩ := dispatchState_removeDirEntry_cases meta a
  · rw [h]
  · rw [h]
    simp only [getAttr]
    cases meta.path2inum path with
    | none => rfl
    | some i =>
      by_cases hi : i = pi
      · subst hi
        simp [hn, S3Node.getAttr]
      · simp [Function.update_noteq hi]

end Spec

end DatenLord.Dist
