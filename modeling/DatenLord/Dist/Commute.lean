import DatenLord.Dist.Reachable

/-!
# Independent peer requests commute

The server runs each connection in its own task and orders them only by the maps'
locks, so two peers' requests may take effect in either order. When the two are
independent (distinct target paths, neither's parent the other's target, fresh and
distinct child inodes) both orders leave the same metadata. Invariants (1) and (3)
are all the proof needs of the state: they make distinct parent paths name distinct
nodes, and keep indexed inodes apart from absent ones. Since no request caches an
inode it does not create, independence survives the other requests of a batch, and a
batch of pairwise independent requests leaves the same metadata in every order.
-/
namespace DatenLord.Dist

namespace S3MetaData

variable {meta : S3MetaData} {q : String} {i j : INum} {a : UpdateDirArgs}

theorem PathIndexed.ne_of_absent (h : meta.PathIndexed) (hq : meta.path2inum q = some i)
    (hj : meta.cache j = none) : i ≠ j := by
  rintro rfl
  obtain ⟨c, hc, -⟩ := h.path_node q i hq
  rw [hc] at hj
  cases hj

/-- A path whose inode is not cached is not indexed. -/
theorem PathIndexed.path2inum_eq_none (h : meta.PathIndexed)
    (hq : ∀ i, meta.path2inum q = some i → meta.cache i = none) : meta.path2inum q = none := by
  cases hp : meta.path2inum q with
  | none => rfl
  | some i => exact absurd (hq i hp) fun hi => h.ne_of_absent hp hi rfl

theorem parentDir_eq_none :
    meta.parentDir q = none ↔
      ∀ i n, meta.path2inum q = some i → meta.cache i = some n → n.getDirData = none := by
  simp only [parentDir, Option.bind_eq_none, Option.map_eq_none']
  exact ⟨fun h i n hi hn => h i hi n hn, fun h i hi n hn => h i n hi hn⟩

/-- An `UpdateDir` indexes only its target path. -/
theorem PathIndexed.path2inum_updateDir (h : meta.PathIndexed)
    (hq : q ≠ joinPath a.parentPath a.childName) :
    (dispatchState meta (.UpdateDir a)).path2inum q = meta.path2inum q := by
  obtain ⟨-, hs⟩ | ⟨pi, n, d, hp, hn, -, hs⟩ := dispatchState_updateDir_cases meta a <;> rw [hs]
  rw [h.fullPath_eq hp hn]
  exact Function.update_noteq hq _ _

/-- A path that resolves to no directory still does after an `UpdateDir` of a fresh
child elsewhere. -/
theorem PathIndexed.parentDir_updateDir (h : meta.PathIndexed)
    (hf : meta.cache a.childAttr.ino = none) (hq : q ≠ joinPath a.parentPath a.childName)
    (hn : meta.parentDir q = none) : (dispatchState meta (.UpdateDir a)).parentDir q = none := by
  have hpq := h.path2inum_updateDir hq
  obtain ⟨-, hs⟩ | ⟨pi, n, d, -, hn', hd, hs⟩ := dispatchState_updateDir_cases meta a
  · rwa [hs]
  rw [parentDir_eq_none] at hn ⊢
  intro i c hi hc
  rw [hpq] at hi
  rw [hs] at hc
  simp only [Function.update_noteq (h.ne_of_absent hi hf), Function.update_apply] at hc
  split_ifs at hc with hip
  · subst hip
    cases (hn i n hi hn').symm.trans hd
  · exact hn i c hi hc

theorem parentDir_removeDirEntry {b : RemoveDirEntryArgs} (hn : meta.parentDir q = none) :
    (dispatchState meta (.RemoveDirEntry b)).parentDir q = none := by
  obtain ⟨-, hs⟩ | ⟨pi, n, d, -, hn', hd, hs⟩ := dispatchState_removeDirEntry_cases meta b <;>
    rw [hs]
  · exact hn
  rw [parentDir_eq_none] at hn ⊢
  intro i c hi hc
  simp only [Function.update_apply] at hc
  split_ifs at hc with hip
  · subst hip
    cases (hn i n hi hn').symm.trans hd
  · exact hn i c hi hc

theorem parentDir_pushFileAttr {path : String} {attr : FileAttr} (hn : meta.parentDir q = none) :
    (dispatchState meta (.PushFileAttr path attr)).parentDir q = none := by
  obtain ⟨-, hs⟩ | ⟨k, n, -, hn', hs⟩ := dispatchState_pushFileAttr_cases meta path attr <;>
    rw [hs]
  · exact hn
  rw [parentDir_eq_none] at hn ⊢
  intro i c hi hc
  simp only [Function.update_apply] at hc
  split_ifs at hc with hik
  · subst hik
    cases hc
    exact hn i n hi hn'
  · exact hn i c hi hc

end S3MetaData

open S3MetaData

variable {meta : S3MetaData}

/-- Two `UpdateDir`s of fresh children at distinct paths: under one parent their two new
entries merge and the children sit side by side; under two parents the four writes are
at four distinct keys. -/
theorem updateDir_comm_updateDir (h : meta.PathIndexed) {a₁ a₂ : UpdateDirArgs}
    (ht : joinPath a₁.parentPath a₁.childName ≠ joinPath a₂.parentPath a₂.childName)
    (hp₁ : a₁.parentPath ≠ joinPath a₂.parentPath a₂.childName)
    (hp₂ : a₂.parentPath ≠ joinPath a₁.parentPath a₁.childName)
    (hf₁ : meta.cache a₁.childAttr.ino = none) (hf₂ : meta.cache a₂.childAttr.ino = none)
    (hne : a₁.childAttr.ino ≠ a₂.childAttr.ino) :
    dispatchState (dispatchState meta (.UpdateDir a₁)) (.UpdateDir a₂) =
      dispatchState (dispatchState meta (.UpdateDir a₂)) (.UpdateDir a₁) := by
  obtain ⟨hn₁, hs₁⟩ | ⟨pi₁, n₁, d₁, hq₁, hn₁, hd₁, hs₁⟩ := dispatchState_updateDir_cases meta a₁ <;>
  obtain ⟨hn₂, hs₂⟩ | ⟨pi₂, n₂, d₂, hq₂, hn₂, hd₂, hs₂⟩ := dispatchState_updateDir_cases meta a₂
  · rw [hs₁, hs₂, hs₁]
  · rw [hs₁, dispatchState_updateDir_of_parentDir a₁ (h.parentDir_updateDir hf₂ hp₁ hn₁)]
  · rw [hs₂, dispatchState_updateDir_of_parentDir a₂ (h.parentDir_updateDir hf₁ hp₂ hn₂)]
  have hfp₁ : n₁.fullPath = a₁.parentPath := h.fullPath_eq hq₁ hn₁
  have hfp₂ : n₂.fullPath = a₂.parentPath := h.fullPath_eq hq₂ hn₂
  have h₁₁ : pi₁ ≠ a₁.childAttr.ino := h.ne_of_absent hq₁ hf₁
  have h₁₂ : pi₁ ≠ a₂.childAttr.ino := h.ne_of_absent hq₁ hf₂
  have h₂₁ : pi₂ ≠ a₁.childAttr.ino := h.ne_of_absent hq₂ hf₁
  have hr₁ := (h.path2inum_updateDir hp₁).trans hq₁
  have hr₂ := (h.path2inum_updateDir hp₂).trans hq₂
  have ht' : joinPath n₁.fullPath a₁.childName ≠ joinPath n₂.fullPath a₂.childName := by
    rwa [hfp₁, hfp₂]
  by_cases hpi : pi₁ = pi₂
  · subst hpi
    obtain rfl : n₁ = n₂ := Option.some.inj (hn₁.symm.trans hn₂)
    obtain rfl : d₁ = d₂ := Option.some.inj (hd₁.symm.trans hd₂)
    have hname : a₁.childName ≠ a₂.childName := fun he => ht' (by rw [he])
    rw [dispatchState_updateDir a₂ hr₂ (cache_updateDir_parent a₁ hq₁ hn₁ hd₁ h₁₁) rfl, hs₁,
      dispatchState_updateDir a₁ hr₁ (cache_updateDir_parent a₂ hq₂ hn₁ hd₁ h₁₂) rfl, hs₂]
    simp only [S3MetaData.mk.injEq, S3Node.newChildNodeOfParent_modify, and_true]
    refine ⟨Function.update_comm ht' _ _ _, ?_⟩
    rw [Function.update_comm h₁₁.symm, Function.update_idem, Function.update_comm h₁₂.symm,
      Function.update_idem, Function.update_comm hne.symm, Function.update_comm hname]
  · rw [dispatchState_updateDir a₂ hr₂
        ((cache_updateDir_of_ne a₁ hq₁ hn₁ hd₁ (Ne.symm hpi) h₂₁).trans hn₂) hd₂, hs₁,
      dispatchState_updateDir a₁ hr₁
        ((cache_updateDir_of_ne a₂ hq₂ hn₂ hd₂ hpi h₁₂).trans hn₁) hd₁, hs₂]
    simp only [S3MetaData.mk.injEq, and_true]
    refine ⟨Function.update_comm ht' _ _ _, ?_⟩
    rw [Function.update_comm h₁₂.symm, Function.update_comm hne.symm,
      Function.update_comm (Ne.symm hpi), Function.update_comm h₂₁]

/-- An `UpdateDir` of a fresh child and a `RemoveDirEntry` of another name: under one
parent one entry is added and another removed. -/
theorem updateDir_comm_removeDirEntry (h : meta.PathIndexed) {a₁ : UpdateDirArgs}
    {b₂ : RemoveDirEntryArgs}
    (ht : joinPath a₁.parentPath a₁.childName ≠ joinPath b₂.parentPath b₂.childName)
    (hp₂ : b₂.parentPath ≠ joinPath a₁.parentPath a₁.childName)
    (hf₁ : meta.cache a₁.childAttr.ino = none) :
    dispatchState (dispatchState meta (.UpdateDir a₁)) (.RemoveDirEntry b₂) =
      dispatchState (dispatchState meta (.RemoveDirEntry b₂)) (.UpdateDir a₁) := by
  obtain ⟨hn₁, hs₁⟩ | ⟨pi₁, n₁, d₁, hq₁, hn₁, hd₁, hs₁⟩ := dispatchState_updateDir_cases meta a₁ <;>
  obtain ⟨hn₂, hs₂⟩ | ⟨pi₂, n₂, d₂, hq₂, hn₂, hd₂, hs₂⟩ :=
    dispatchState_removeDirEntry_cases meta b₂
  · rw [hs₁, hs₂, hs₁]
  · rw [hs₁, dispatchState_updateDir_of_parentDir a₁ (parentDir_removeDirEntry hn₁)]
  · rw [hs₂, dispatchState_removeDirEntry_of_parentDir b₂ (h.parentDir_updateDir hf₁ hp₂ hn₂)]
  have h₁₁ : pi₁ ≠ a₁.childAttr.ino := h.ne_of_absent hq₁ hf₁
  have h₂₁ : pi₂ ≠ a₁.childAttr.ino := h.ne_of_absent hq₂ hf₁
  have hr₁ : (dispatchState meta (.RemoveDirEntry b₂)).path2inum a₁.parentPath = some pi₁ := by
    rw [path2inum_removeDirEntry, hq₁]
  have hr₂ := (h.path2inum_updateDir hp₂).trans hq₂
  by_cases hpi : pi₁ = pi₂
  · subst hpi
    obtain rfl : n₁ = n₂ := Option.some.inj (hn₁.symm.trans hn₂)
    obtain rfl : d₁ = d₂ := Option.some.inj (hd₁.symm.trans hd₂)
    have hname : a₁.childName ≠ b₂.childName := fun he =>
      ht (by rw [h.path_inj hq₁ hq₂, he])
    rw [dispatchState_removeDirEntry b₂ hr₂ (cache_updateDir_parent a₁ hq₁ hn₁ hd₁ h₁₁) rfl, hs₁,
      dispatchState_updateDir a₁ hr₁ (cache_removeDirEntry_parent b₂ hq₂ hn₁ hd₁) rfl, hs₂]
    simp only [S3MetaData.mk.injEq, S3Node.newChildNodeOfParent_modify, true_and, and_true]
    rw [Function.update_comm h₁₁.symm, Function.update_idem, Function.update_idem,
      Function.update_comm hname]
  · rw [dispatchState_removeDirEntry b₂ hr₂
        ((cache_updateDir_of_ne a₁ hq₁ hn₁ hd₁ (Ne.symm hpi) h₂₁).trans hn₂) hd₂, hs₁,
      dispatchState_updateDir a₁ hr₁
        ((cache_removeDirEntry_of_ne b₂ hq₂ hn₂ hd₂ hpi).trans hn₁) hd₁, hs₂]
    simp only [S3MetaData.mk.injEq, true_and, and_true]
    rw [Function.update_comm (Ne.symm hpi), Function.update_comm h₂₁]

theorem updateDir_comm_pushFileAttr (h : meta.PathIndexed) {a₁ : UpdateDirArgs} {path : String}
    {attr : FileAttr} (ht : joinPath a₁.parentPath a₁.childName ≠ path)
    (hp₁ : a₁.parentPath ≠ path) (hf₁ : meta.cache a₁.childAttr.ino = none) :
    dispatchState (dispatchState meta (.UpdateDir a₁)) (.PushFileAttr path attr) =
      dispatchState (dispatchState meta (.PushFileAttr path attr)) (.UpdateDir a₁) := by
  obtain ⟨hn₁, hs₁⟩ | ⟨pi₁, n₁, d₁, hq₁, hn₁, hd₁, hs₁⟩ := dispatchState_updateDir_cases meta a₁ <;>
  obtain ⟨hn₂, hs₂⟩ | ⟨i₂, n₂, hq₂, hn₂, hs₂⟩ := dispatchState_pushFileAttr_cases meta path attr
  · rw [hs₁, hs₂, hs₁]
  · rw [hs₁, dispatchState_updateDir_of_parentDir a₁ (parentDir_pushFileAttr hn₁)]
  · have hq₂ := (h.path2inum_updateDir (Ne.symm ht)).trans (h.path2inum_eq_none hn₂)
    rw [hs₂, dispatchState_pushFileAttr_of_cache path attr (by simp [hq₂])]
  have h₂₁ : i₂ ≠ a₁.childAttr.ino := h.ne_of_absent hq₂ hf₁
  have hpi : pi₁ ≠ i₂ := fun he => hp₁ (h.path_inj hq₁ (he ▸ hq₂))
  rw [dispatchState_pushFileAttr path attr ((h.path2inum_updateDir (Ne.symm ht)).trans hq₂)
      ((cache_updateDir_of_ne a₁ hq₁ hn₁ hd₁ (Ne.symm hpi) h₂₁).trans hn₂), hs₁,
    dispatchState_updateDir a₁ (by rw [path2inum_pushFileAttr, hq₁])
      ((cache_pushFileAttr_of_ne path attr hq₂ hn₂ hpi).trans hn₁) hd₁, hs₂]
  simp only [S3MetaData.mk.injEq, true_and, and_true]
  rw [Function.update_comm (Ne.symm hpi), Function.update_comm h₂₁]

/-- Two `RemoveDirEntry`s of distinct paths: under one parent two of its entries are
removed. -/
theorem removeDirEntry_comm_removeDirEntry (h : meta.PathIndexed) {b₁ b₂ : RemoveDirEntryArgs}
    (ht : joinPath b₁.parentPath b₁.childName ≠ joinPath b₂.parentPath b₂.childName) :
    dispatchState (dispatchState meta (.RemoveDirEntry b₁)) (.RemoveDirEntry b₂) =
      dispatchState (dispatchState meta (.RemoveDirEntry b₂)) (.RemoveDirEntry b₁) := by
  obtain ⟨hn₁, hs₁⟩ | ⟨pi₁, n₁, d₁, hq₁, hn₁, hd₁, hs₁⟩ :=
    dispatchState_removeDirEntry_cases meta b₁ <;>
  obtain ⟨hn₂, hs₂⟩ | ⟨pi₂, n₂, d₂, hq₂, hn₂, hd₂, hs₂⟩ :=
    dispatchState_removeDirEntry_cases meta b₂
  · rw [hs₁, hs₂, hs₁]
  · rw [hs₁, dispatchState_removeDirEntry_of_parentDir b₁ (parentDir_removeDirEntry hn₁)]
  · rw [hs₂, dispatchState_removeDirEntry_of_parentDir b₂ (parentDir_removeDirEntry hn₂)]
  have hr₁ : (dispatchState meta (.RemoveDirEntry b₂)).path2inum b₁.parentPath = some pi₁ := by
    rw [path2inum_removeDirEntry, hq₁]
  have hr₂ : (dispatchState meta (.RemoveDirEntry b₁)).path2inum b₂.parentPath = some pi₂ := by
    rw [path2inum_removeDirEntry, hq₂]
  by_cases hpi : pi₁ = pi₂
  · subst hpi
    obtain rfl : n₁ = n₂ := Option.some.inj (hn₁.symm.trans hn₂)
    obtain rfl : d₁ = d₂ := Option.some.inj (hd₁.symm.trans hd₂)
    have hname : b₁.childName ≠ b₂.childName := fun he =>
      ht (by rw [h.path_inj hq₁ hq₂, he])
    rw [dispatchState_removeDirEntry b₂ hr₂ (cache_removeDirEntry_parent b₁ hq₁ hn₁ hd₁) rfl, hs₁,
      dispatchState_removeDirEntry b₁ hr₁ (cache_removeDirEntry_parent b₂ hq₂ hn₁ hd₁) rfl, hs₂]
    simp only [S3MetaData.mk.injEq, true_and, and_true]
    rw [Function.update_idem, Function.update_idem, Function.update_comm hname]
  · rw [dispatchState_removeDirEntry b₂ hr₂
        ((cache_removeDirEntry_of_ne b₁ hq₁ hn₁ hd₁ (Ne.symm hpi)).trans hn₂) hd₂, hs₁,
      dispatchState_removeDirEntry b₁ hr₁
        ((cache_removeDirEntry_of_ne b₂ hq₂ hn₂ hd₂ hpi).trans hn₁) hd₁, hs₂]
    simp only [S3MetaData.mk.injEq, true_and, and_true]
    rw [Function.update_comm (Ne.symm hpi)]

theorem removeDirEntry_comm_pushFileAttr (h : meta.PathIndexed) {b₁ : RemoveDirEntryArgs}
    {path : String} {attr : FileAttr} (hp₁ : b₁.parentPath ≠ path) :
    dispatchState (dispatchState meta (.RemoveDirEntry b₁)) (.PushFileAttr path attr) =
      dispatchState (dispatchState meta (.PushFileAttr path attr)) (.RemoveDirEntry b₁) := by
  obtain ⟨hn₁, hs₁⟩ | ⟨pi₁, n₁, d₁, hq₁, hn₁, hd₁, hs₁⟩ :=
    dispatchState_removeDirEntry_cases meta b₁ <;>
  obtain ⟨hn₂, hs₂⟩ | ⟨i₂, n₂, hq₂, hn₂, hs₂⟩ := dispatchState_pushFileAttr_cases meta path attr
  · rw [hs₁, hs₂, hs₁]
  · rw [hs₁, dispatchState_removeDirEntry_of_parentDir b₁ (parentDir_pushFileAttr hn₁)]
  · rw [hs₂, dispatchState_pushFileAttr_of_cache path attr
      (by simp [path2inum_removeDirEntry, h.path2inum_eq_none hn₂])]
  have hpi : pi₁ ≠ i₂ := fun he => hp₁ (h.path_inj hq₁ (he ▸ hq₂))
  rw [dispatchState_pushFileAttr path attr (by rw [path2inum_removeDirEntry, hq₂])
      ((cache_removeDirEntry_of_ne b₁ hq₁ hn₁ hd₁ (Ne.symm hpi)).trans hn₂), hs₁,
    dispatchState_removeDirEntry b₁ (by rw [path2inum_pushFileAttr, hq₁])
      ((cache_pushFileAttr_of_ne path attr hq₂ hn₂ hpi).trans hn₁) hd₁, hs₂]
  simp only [S3MetaData.mk.injEq, true_and, and_true]
  rw [Function.update_comm (Ne.symm hpi)]

theorem pushFileAttr_comm_pushFileAttr (h : meta.PathIndexed) {path₁ path₂ : String}
    {attr₁ attr₂ : FileAttr} (ht : path₁ ≠ path₂) :
    dispatchState (dispatchState meta (.PushFileAttr path₁ attr₁)) (.PushFileAttr path₂ attr₂) =
      dispatchState (dispatchState meta (.PushFileAttr path₂ attr₂)) (.PushFileAttr path₁ attr₁) := by
  obtain ⟨hn₁, hs₁⟩ | ⟨i₁, n₁, hq₁, hn₁, hs₁⟩ := dispatchState_pushFileAttr_cases meta path₁ attr₁ <;>
  obtain ⟨hn₂, hs₂⟩ | ⟨i₂, n₂, hq₂, hn₂, hs₂⟩ := dispatchState_pushFileAttr_cases meta path₂ attr₂
  · rw [hs₁, hs₂, hs₁]
  · rw [hs₁, dispatchState_pushFileAttr_of_cache path₁ attr₁
      (by simp [path2inum_pushFileAttr, h.path2inum_eq_none hn₁])]
  · rw [hs₂, dispatchState_pushFileAttr_of_cache path₂ attr₂
      (by simp [path2inum_pushFileAttr, h.path2inum_eq_none hn₂])]
  have hi : i₁ ≠ i₂ := fun he => ht (h.path_inj hq₁ (he ▸ hq₂))
  rw [dispatchState_pushFileAttr path₂ attr₂ (by rw [path2inum_pushFileAttr, hq₂])
      ((cache_pushFileAttr_of_ne path₁ attr₁ hq₁ hn₁ (Ne.symm hi)).trans hn₂), hs₁,
    dispatchState_pushFileAttr path₁ attr₁ (by rw [path2inum_pushFileAttr, hq₁])
      ((cache_pushFileAttr_of_ne path₂ attr₂ hq₂ hn₂ hi).trans hn₁), hs₂]
  simp only [S3MetaData.mk.injEq, true_and, and_true]
  rw [Function.update_comm (Ne.symm hi)]

/-- The full path a mutating request targets: the child's for `UpdateDir` and
`RemoveDirEntry`, the node's own for `PushFileAttr`. -/
def DistRequest.target : DistRequest → Option String
  | .UpdateDir a => some (joinPath a.parentPath a.childName)
  | .RemoveDirEntry a => some (joinPath a.parentPath a.childName)
  | .PushFileAttr path _ => some path
  | _ => none

/-- The parent path an `UpdateDir` or `RemoveDirEntry` resolves. -/
def DistRequest.parentPath : DistRequest → Option String
  | .UpdateDir a => some a.parentPath
  | .RemoveDirEntry a => some a.parentPath
  | _ => none

/-- The inode an `UpdateDir` creates. -/
def DistRequest.childIno : DistRequest → Option INum
  | .UpdateDir a => some a.childAttr.ino
  | _ => none

/-- A request writes only inodes already cached, and an `UpdateDir` its child inode
besides: an inode it does not create stays uncached. -/
theorem cache_dispatchState_eq_none {meta : S3MetaData} {j : INum} (r : DistRequest)
    (hj : meta.cache j = none) (hr : r.childIno ≠ some j) :
    (dispatchState meta r).cache j = none := by
  have hne : ∀ {pi n}, meta.cache pi = some n → j ≠ pi := fun hn h => by
    rw [h, hn] at hj; cases hj
  cases r with
  | UpdateDir a =>
    obtain ⟨-, hs⟩ | ⟨pi, n, d, hp, hn, hd, -⟩ := dispatchState_updateDir_cases meta a
    · rwa [hs]
    · rwa [cache_updateDir_of_ne a hp hn hd (hne hn) fun h => hr (by rw [h]; rfl)]
  | RemoveDirEntry a =>
    obtain ⟨-, hs⟩ | ⟨pi, n, d, hp, hn, hd, -⟩ := dispatchState_removeDirEntry_cases meta a
    · rwa [hs]
    · rwa [cache_removeDirEntry_of_ne a hp hn hd (hne hn)]
  | PushFileAttr path attr =>
    obtain ⟨-, hs⟩ | ⟨i, n, hp, hn, -⟩ := dispatchState_pushFileAttr_cases meta path attr
    · rwa [hs]
    · rwa [cache_pushFileAttr_of_ne path attr hp hn (hne hn)]
  | TurnOff | LoadDir _ | GetFileAttr _ | GetInodeNum => simpa using hj

/-- Two of `UpdateDir`, `RemoveDirEntry` and `PushFileAttr` that are independent in
`meta`: distinct targets, neither's parent path the other's target, and each
`UpdateDir`'s child inode absent from the cache and not the other's. -/
structure Independent (meta : S3MetaData) (r₁ r₂ : DistRequest) : Prop where
  targets : ∃ t₁ t₂, r₁.target = some t₁ ∧ r₂.target = some t₂ ∧ t₁ ≠ t₂
  parent₁ : ∀ p, r₁.parentPath = some p → r₂.target ≠ some p
  parent₂ : ∀ p, r₂.parentPath = some p → r₁.target ≠ some p
  fresh₁ : ∀ i, r₁.childIno = some i → meta.cache i = none
  fresh₂ : ∀ i, r₂.childIno = some i → meta.cache i = none
  childIno_ne : ∀ i, r₁.childIno = some i → r₂.childIno ≠ some i

namespace Independent

variable {meta : S3MetaData} {r r₁ r₂ : DistRequest}

theorem symm (hi : Independent meta r₁ r₂) : Independent meta r₂ r₁ :=
  ⟨by obtain ⟨t₁, t₂, h₁, h₂, ht⟩ := hi.targets; exact ⟨t₂, t₁, h₂, h₁, Ne.symm ht⟩,
    hi.parent₂, hi.parent₁, hi.fresh₂, hi.fresh₁,
    fun i h₂ h₁ => hi.childIno_ne i h₁ h₂⟩

/-- The first of two independent requests creates no inode already cached. -/
theorem admissible (hi : Independent meta r₁ r₂) : r₁.Admissible meta := by
  cases r₁ with
  | UpdateDir a => intro c hc; cases (hi.fresh₁ _ rfl).symm.trans hc
  | _ => trivial

/-- A third request that creates neither's child inode keeps two requests independent. -/
theorem step (hi : Independent meta r₁ r₂) (h₁ : Independent meta r r₁)
    (h₂ : Independent meta r r₂) : Independent (dispatchState meta r) r₁ r₂ :=
  { hi with
    fresh₁ := fun i hi₁ => cache_dispatchState_eq_none r (hi.fresh₁ i hi₁)
      fun hr => h₁.childIno_ne i hr hi₁
    fresh₂ := fun i hi₂ => cache_dispatchState_eq_none r (hi.fresh₂ i hi₂)
      fun hr => h₂.childIno_ne i hr hi₂ }

end Independent

/-- The acceptor hands each peer connection to a detached task, so the tasks of a batch
may finish in any order. From a state keeping invariants (1) and (3), a batch of pairwise
independent requests leaves the same path index and inode cache in every order. Two
adjacent independent requests commute by the lemma for their pair of kinds; the rest of
the batch stays independent, since no request caches an inode it does not create. -/
theorem dispatchAll_perm {rs rs' : List DistRequest} (hp : rs.Perm rs') (meta : S3MetaData)
    (h : meta.PathIndexed) (hi : rs.Pairwise (Independent meta)) :
    dispatchAll meta rs = dispatchAll meta rs' := by
  induction hp generalizing meta with
  | nil => rfl
  | @cons x l₁ l₂ p ih =>
    obtain ⟨hx, hl⟩ := List.pairwise_cons.1 hi
    cases l₁ with
    | nil => rw [← p.nil_eq]
    | cons y l =>
      exact ih _ (h.step (hx y (.head _)).admissible)
        (hl.imp_of_mem fun ha hb hab => hab.step (hx _ ha) (hx _ hb))
  | swap x y l =>
    suffices hc : dispatchState (dispatchState meta y) x = dispatchState (dispatchState meta x) y
      from congrArg (dispatchAll · l) hc
    obtain ⟨⟨t₁, t₂, ht₁, ht₂, ht⟩, hp₁, hp₂, hf₁, hf₂, hne⟩ :=
      (List.pairwise_cons.1 hi).1 x (.head _)
    cases y <;> cases x <;>
      simp only [DistRequest.target, DistRequest.parentPath, DistRequest.childIno, reduceCtorEq,
        Option.some.injEq, forall_eq', false_implies, implies_true, ne_eq]
        at ht₁ ht₂ hp₁ hp₂ hf₁ hf₂ hne <;>
      subst ht₁ ht₂
    case UpdateDir.UpdateDir =>
      exact updateDir_comm_updateDir h ht (Ne.symm hp₁) (Ne.symm hp₂) hf₁ hf₂ (Ne.symm hne)
    case UpdateDir.RemoveDirEntry => exact updateDir_comm_removeDirEntry h ht (Ne.symm hp₂) hf₁
    case UpdateDir.PushFileAttr => exact updateDir_comm_pushFileAttr h ht (Ne.symm hp₁) hf₁
    case RemoveDirEntry.UpdateDir =>
      exact (updateDir_comm_removeDirEntry h (Ne.symm ht) (Ne.symm hp₁) hf₂).symm
    case RemoveDirEntry.RemoveDirEntry => exact removeDirEntry_comm_removeDirEntry h ht
    case RemoveDirEntry.PushFileAttr => exact removeDirEntry_comm_pushFileAttr h (Ne.symm hp₁)
    case PushFileAttr.UpdateDir =>
      exact (updateDir_comm_pushFileAttr h (Ne.symm ht) (Ne.symm hp₂) hf₂).symm
    case PushFileAttr.RemoveDirEntry =>
      exact (removeDirEntry_comm_pushFileAttr h (Ne.symm hp₂)).symm
    case PushFileAttr.PushFileAttr => exact pushFileAttr_comm_pushFileAttr h ht
  | trans p₁ p₂ ih₁ ih₂ =>
    exact (ih₁ meta h hi).trans (ih₂ meta h ((p₁.pairwise_iff Independent.symm).1 hi))

/-- Two children added to the root and a third name removed from it, in reverse order. -/
theorem dispatchAll_perm_root_batch :
    let attr (ino : INum) : FileAttr := ⟨ino, .S_IFDIR, 0, 0o755, 0, 0⟩
    let meta := S3MetaData.root "/" (attr 1) 2
    let rs := [DistRequest.UpdateDir ⟨"/", "a", attr 2, none⟩,
      .UpdateDir ⟨"/", "b", attr 3, none⟩, .RemoveDirEntry ⟨"/", "c"⟩]
    dispatchAll meta rs = dispatchAll meta rs.reverse :=
  dispatchAll_perm (List.reverse_perm _).symm _ (S3MetaData.root_consistent _ _ _).toPathIndexed
    (by
      simp only [List.pairwise_cons, List.mem_cons, List.mem_singleton, forall_eq_or_imp,
        forall_eq, List.not_mem_nil, false_implies, implies_true, List.Pairwise.nil, and_true]
      refine ⟨⟨?_, ?_⟩, ?_⟩ <;>
        exact ⟨⟨_, _, rfl, rfl, by decide⟩, by rintro p ⟨⟩; decide, by rintro p ⟨⟩; decide,
          by rintro i ⟨⟩; rfl, by rintro i ⟨⟩ <;> rfl, by rintro i ⟨⟩; decide⟩)

/-- Independent requests commute: from any state keeping invariants (1) and (3),
dispatching them in either order leaves the same path index and inode cache. -/
theorem dispatchState_comm (meta : S3MetaData) (r₁ r₂ : DistRequest) (h : meta.PathIndexed)
    (hi : Independent meta r₁ r₂) :
    dispatchState (dispatchState meta r₁) r₂ = dispatchState (dispatchState meta r₂) r₁ :=
  dispatchAll_perm (List.Perm.swap r₂ r₁ []) meta h (List.pairwise_pair.2 hi)

/-- Two peers adding different children to the root, in either order. -/
theorem dispatchState_comm_two_children :
    let attr (ino : INum) : FileAttr := ⟨ino, .S_IFDIR, 0, 0o755, 0, 0⟩
    let meta := S3MetaData.root "/" (attr 1) 2
    let r₁ := DistRequest.UpdateDir ⟨"/", "a", attr 2, none⟩
    let r₂ := DistRequest.UpdateDir ⟨"/", "b", attr 3, none⟩
    dispatchState (dispatchState meta r₁) r₂ = dispatchState (dispatchState meta r₂) r₁ :=
  dispatchState_comm _ _ _ (S3MetaData.root_consistent _ _ _).toPathIndexed
    ⟨⟨_, _, rfl, rfl, by decide⟩, by rintro p ⟨⟩; decide, by rintro p ⟨⟩; decide,
      by rintro i ⟨⟩; rfl, by rintro i ⟨⟩; rfl, by rintro i ⟨⟩; decide⟩

end DatenLord.Dist
