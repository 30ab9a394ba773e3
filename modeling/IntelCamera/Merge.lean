import IntelCamera.CameraMap
import IntelCamera.Parameters

/-!
# Merge — `Parameters::merge` without assertions

The merge is a right-biased union (`merge_spec`).  `MergeAssert` says when a build with assertions gets as
far as that.

The loop of `merge` walks the entries of the source by index and stores each with the overload of its
type.  `merge_fold` says what the metadata of the object holds after `k` rounds: the first `k` entries
of the source, laid over what was there before.  The rounds make the packet grow repeatedly;
`RoomFor entries bytes` is room for all that is still to come, and one round uses its own part of it.
-/

namespace IntelCamera

open Lib

namespace Parameters

/-! ### Room -/

/-- The packet with room for so many more entries and bytes, the present one or a larger one, fits in
32 bits. -/
def RoomFor (entries bytes : ℕ) (out : Heap × CameraMetadata) : Prop :=
  calculateCameraMetadataSize
    (CameraMetadata.grownCapacity (out.2.entryCount out.1) (out.2.entryCapacity out.1) entries)
    (CameraMetadata.grownCapacity (out.2.dataCount out.1) (out.2.dataCapacity out.1) bytes) < 2 ^ 32

section Room

variable {entries bytes size : ℕ} {out : Heap × CameraMetadata}

theorem RoomFor.request (h : RoomFor (entries + 1) (size + bytes) out) :
    out.2.requestSize out.1 size < 2 ^ 32 :=
  lt_of_le_of_lt (calculateSize_mono (CameraMetadata.grownCapacity_mono _ _ (by omega))
    (CameraMetadata.grownCapacity_mono _ _ (by omega))) h

theorem RoomFor.updated (h : RoomFor (entries + 1) (size + bytes) out) {ops : Option VendorTagOps}
    {x : TypedEntry} {h' : Heap} {c' : CameraMetadata}
    (hu : CameraMetadata.Updated ops (2 ^ 32) out.1 out.2 x size h' c') :
    RoomFor entries bytes (h', c') := by
  refine lt_of_le_of_lt (calculateSize_mono ?_ ?_) h
  · rw [hu.entryCapacity, Nat.add_comm entries 1]
    exact CameraMetadata.grownCapacity_rest entries hu.entryCount
  · rw [hu.dataCapacity]
    exact CameraMetadata.grownCapacity_rest bytes hu.dataCount

end Room

/-! ### One round -/

theorem ofCode_code (t : MetaType) : MetaType.ofCode t.code = some t := by
  cases t <;> rfl

/-- `upper` laid over `lower`. -/
def overlay (upper lower : ℕ → Option TypedEntry) (tag : ℕ) : Option TypedEntry :=
  (upper tag).or (lower tag)

theorem overlay_none (lower : ℕ → Option TypedEntry) : overlay (fun _ => none) lower = lower := by
  funext tag
  exact Option.none_or

theorem overlay_assoc (a b c : ℕ → Option TypedEntry) :
    overlay a (overlay b c) = overlay (overlay a b) c := by
  funext tag
  exact Option.or_assoc.symm

theorem overlay_twice (a c : ℕ → Option TypedEntry) : overlay a (overlay a c) = overlay a c := by
  rw [overlay_assoc]
  congr 1
  funext tag
  exact Option.or_self

theorem overlay_update (upper lower : ℕ → Option TypedEntry) (tag : ℕ) (x : TypedEntry) :
    overlay (Function.update upper tag (some x)) lower =
      Function.update (overlay upper lower) tag (some x) := by
  funext k
  by_cases hk : k = tag
  · subst hk
    unfold overlay
    rw [Function.update_self, Function.update_self, Option.some_or]
  · unfold overlay
    rw [Function.update_of_ne hk, Function.update_of_ne hk]

/-- What some rounds of the loop leave: the object holds `values`, has room for so many more entries and
bytes, and nothing else was touched. -/
structure Laid (ops : Option VendorTagOps) (h : Heap) (c : CameraMetadata)
    (values : ℕ → Option TypedEntry) (entries bytes : ℕ) (r : Heap × CameraMetadata) : Prop where
  holds : r.2.Holds (IsMap ops (2 ^ 32)) r.1
  values : r.2.values r.1 = values
  room : RoomFor entries bytes r
  frame : CameraMetadata.Frame h c r.1 r.2

section Rounds

variable {L : Libc} {ops : Option VendorTagOps} (hmalloc : ∀ n, (L.malloc n).isSome) {h : Heap}
  {c : CameraMetadata} {src : Metadata} {buffer : ℕ}

include hmalloc

omit hmalloc in
/-- What the loop finds at the index `i`: an entry of the type registered for its tag. -/
theorem source_entry (hsrc : IsTyped ops (2 ^ 32) src) {i : ℕ} {e : BufferEntry}
    (hi : src.entries[i]? = some e) : ∃ t, getCameraMetadataTagType ops e.tag = some t ∧
      getCameraMetadataEntry src i = some ⟨i, e.tag, t.code, e.count, src.payload e⟩ ∧
      (src.payload e).length = e.count * cameraMetadataTypeSize t.code ∧
      calculateCameraMetadataEntryDataSize t.code e.count = e.dataSize ∧
      (⟨e.tag, t.code, src.payload e⟩ : TypedEntry) = src.absEntry e := by
  have hmem : e ∈ src.entries := List.mem_of_getElem? hi
  obtain ⟨t, ht, hcode⟩ : ∃ t, getCameraMetadataTagType ops e.tag = some t ∧ t.code = e.type :=
    Option.map_eq_some_iff.mp (hsrc.typed (src.absEntry e) (List.mem_map_of_mem hmem))
  refine ⟨t, ht, ?_, ?_, ?_, ?_⟩
  · unfold getCameraMetadataEntry
    rw [hi, hcode]
    rfl
  · rw [hcode]
    exact hsrc.sound.wf.length_payload hmem
  · rw [hcode]
    rfl
  · rw [hcode]
    rfl

/-- **One round** stores one entry. -/
theorem mergeEntry_spec (hsrc : IsTyped ops (2 ^ 32) src) {i : ℕ} {e : BufferEntry}
    (hi : src.entries[i]? = some e) (hc : c.Holds (IsMap ops (2 ^ 32)) h)
    (hb : c.mBuffer ≠ some buffer) {entries bytes : ℕ}
    (hr : RoomFor (entries + 1) (e.dataSize + bytes) (h, c)) :
    Laid ops h c (Function.update (c.values h) e.tag (some (src.absEntry e))) entries bytes
      (mergeEntry L ops buffer src (h, c) i) := by
  obtain ⟨t, ht, hget, hlen, hsize, habs⟩ := source_entry hsrc hi
  have hround : mergeEntry L ops buffer src (h, c) i =
      (c.update L ops h e.tag t (some buffer) (src.payload e) e.count).2 := by
    unfold mergeEntry
    rw [hget]
    dsimp only
    rw [ofCode_code]
  obtain ⟨h', c', hu, hup⟩ := CameraMetadata.update_spec (L := L) le_rfl hmalloc
    (hc.mono fun _ hm => hm.toIsTyped) ht hlen.ge (fun hin => hb hin.2.symm)
    (by rw [hsize]; exact hr.request)
  rw [hsize, ← hlen, List.take_length, habs] at hup
  obtain ⟨hmap, hv⟩ := hup.map hc
  rw [hround, hu]
  exact ⟨hmap, hv, hr.updated hup, hup.frame⟩

omit hmalloc in
/-- After `k` rounds there is room for the next one, and the packet of the source is still not the one
that is written to. -/
theorem Laid.ready {values : ℕ → Option TypedEntry} {k : ℕ} {s : Heap × CameraMetadata} {m : Metadata}
    (hlaid : Laid ops h c values (src.entryCount - k)
      ((src.entries.drop k).map BufferEntry.dataSize).sum s)
    (hlive : h.get buffer = some m) (hb : c.mBuffer ≠ some buffer) (hk : k < src.entries.length) :
    s.2.mBuffer ≠ some buffer ∧ RoomFor (src.entryCount - (k + 1) + 1) (src.entries[k].dataSize +
      ((src.entries.drop (k + 1)).map BufferEntry.dataSize).sum) s := by
  constructor
  · intro he
    rcases hlaid.frame.own buffer he with ho | hnew
    · exact hb ho
    · rw [hlive] at hnew
      cases hnew
  · have hroom := hlaid.room
    have hk' : k < src.entryCount := hk
    rw [List.drop_eq_getElem_cons hk, List.map_cons, List.sum_cons] at hroom
    rwa [show src.entryCount - (k + 1) + 1 = src.entryCount - k by omega]

/-- **`k` rounds**: the first `k` entries of the source are laid over what was there. -/
theorem merge_fold (hsrc : IsTyped ops (2 ^ 32) src) (hn : (src.abs.map (·.tag)).Nodup)
    {m : Metadata} (hlive : h.get buffer = some m) (hc : c.Holds (IsMap ops (2 ^ 32)) h)
    (hb : c.mBuffer ≠ some buffer) (hr : RoomFor src.entryCount src.dataCount (h, c)) {k : ℕ}
    (hk : k ≤ src.entryCount) :
    Laid ops h c (overlay (lookup TypedEntry.tag (src.abs.take k)) (c.values h)) (src.entryCount - k)
      ((src.entries.drop k).map BufferEntry.dataSize).sum
      ((List.range k).foldl (mergeEntry L ops buffer src) (h, c)) := by
  induction k with
  | zero =>
    refine ⟨hc, (overlay_none _).symm, ?_, CameraMetadata.Frame.refl h c⟩
    rw [List.drop_zero, hsrc.sound.wf.sum_dataSize]
    exact hr
  | succ k ih =>
    have hlaid := ih (by omega)
    have hlt : k < src.entries.length := hk
    have hget : src.entries[k]? = some src.entries[k] := List.getElem?_eq_getElem hlt
    rw [List.range_succ, List.foldl_append, List.foldl_cons, List.foldl_nil]
    generalize (List.range k).foldl (mergeEntry L ops buffer src) (h, c) = s at hlaid ⊢
    obtain ⟨h', c'⟩ := s
    obtain ⟨hb', hr'⟩ := hlaid.ready hlive hb hlt
    have hround := mergeEntry_spec hmalloc hsrc hget hlaid.holds hb' hr'
    refine ⟨hround.holds, ?_, hround.room, hlaid.frame.trans hround.frame⟩
    -- the entry is not among the first ones, since its tag occurs once
    have hltabs : k < src.abs.length := by rwa [length_abs]
    have hx : src.abs[k] = src.absEntry src.entries[k] := by
      simp only [Metadata.abs, List.getElem_map]
    have hnew : (src.absEntry src.entries[k]).tag ∉ (src.abs.take k).map (·.tag) := by
      have hsplit : src.abs.take (k + 1) = src.abs.take k ++ [src.abs[k]] :=
        (List.take_append_getElem hltabs).symm
      have hsub := hn.sublist ((List.take_sublist (k + 1) src.abs).map (·.tag))
      rw [hsplit, List.map_append, List.map_singleton, hx] at hsub
      exact fun hin => (List.nodup_append.mp hsub).2.2 _ hin _ List.mem_cons_self rfl
    rw [hround.values, hlaid.values, ← List.take_append_getElem hltabs, hx, lookup_append_new hnew, overlay_update]
    rfl

end Rounds

/-! ### The whole merge -/

/-- What can be merged into `p`: an unlocked object other than that of `p`, with well-typed entries and
no tag twice. -/
structure MergeSource (ops : Option VendorTagOps) (h : Heap) (p : Parameters) (c : CameraMetadata) :
    Prop where
  holds : c.Holds (IsTyped ops (2 ^ 32)) h
  unique : ∀ m, c.packet h = some m → (m.abs.map (·.tag)).Nodup
  other : ∀ b, c.mBuffer = some b → p.mMetadata.mBuffer ≠ some b

/-- What a merge of `c` does: the map of `p` is that of `c` laid over the old one, and nothing else
changes. -/
structure Merged (ops : Option VendorTagOps) (h : Heap) (p : Parameters) (c : CameraMetadata)
    (r : Heap × Parameters × Option CameraMetadata) : Prop where
  holds : r.2.1.mMetadata.Holds (IsMap ops (2 ^ 32)) r.1
  values : r.2.1.mMetadata.values r.1 = overlay (c.values h) (p.mMetadata.values h)
  frame : CameraMetadata.Frame h p.mMetadata r.1 r.2.1.mMetadata
  source : r.2.2 = some c
  rest : { r.2.1 with mMetadata := p.mMetadata } = p

section Whole

variable {L : Libc} {ops : Option VendorTagOps} {h : Heap} {p : Parameters} {c : CameraMetadata}

theorem merge_empty (L : Libc) (ops : Option VendorTagOps) (p : Parameters) (he : c.isEmpty h = true) :
    merge L ops h p (some c) = (h, p, some c) := by
  unfold merge
  dsimp only
  rw [if_pos he]

/-- An object without entries is the empty map. -/
theorem values_of_isEmpty (he : c.isEmpty h = true) : c.values h = fun _ => none := by
  have h0 : c.entryCount h = 0 := by simpa [CameraMetadata.isEmpty] using he
  unfold CameraMetadata.entryCount at h0
  cases hpk : c.packet h with
  | none =>
    funext tag
    unfold CameraMetadata.values
    rw [hpk]
    rfl
  | some m =>
    rw [hpk] at h0
    have hnil : m.abs = [] := by
      rw [← List.length_eq_zero_iff, length_abs]
      exact h0
    rw [CameraMetadata.values_of_packet hpk]
    unfold Metadata.values
    rw [hnil]
    rfl

/-- Locking and unlocking leaves an unlocked object as it was. -/
theorem unlock_getAndLock (hc : c.mLocked = false) : (c.getAndLock.unlock c.mBuffer).2 = c := by
  obtain ⟨b, l⟩ := c
  obtain rfl : l = false := hc
  unfold CameraMetadata.getAndLock CameraMetadata.unlock
  simp

/-- The loop is all there is to a merge of an object with entries. -/
theorem merge_eq (ops : Option VendorTagOps) (p : Parameters) (he : ¬ c.isEmpty h = true)
    (hl : c.mLocked = false) {buffer : ℕ} {src : Metadata} (hb : c.mBuffer = some buffer)
    (hpk : c.packet h = some src) : merge L ops h p (some c) =
      (((List.range src.entryCount).foldl (mergeEntry L ops buffer src) (h, p.mMetadata)).1,
        { p with mMetadata :=
          ((List.range src.entryCount).foldl (mergeEntry L ops buffer src) (h, p.mMetadata)).2 },
        some c) := by
  have hec : c.entryCount h = src.entryCount := by
    unfold CameraMetadata.entryCount
    rw [hpk]
  unfold merge
  dsimp only
  rw [if_neg he, hpk, hb, hec]
  dsimp only
  rw [← hb, unlock_getAndLock hl]

/-- **A merge is a right-biased union.** -/
theorem merge_spec (hmalloc : ∀ n, (L.malloc n).isSome)
    (hp : p.mMetadata.Holds (IsMap ops (2 ^ 32)) h) (hs : MergeSource ops h p c)
    (hr : RoomFor (c.entryCount h) (c.dataCount h) (h, p.mMetadata)) :
    Merged ops h p c (merge L ops h p (some c)) := by
  by_cases he : c.isEmpty h = true
  · rw [merge_empty L ops p he]
    refine ⟨hp, ?_, CameraMetadata.Frame.refl _ _, rfl, rfl⟩
    rw [values_of_isEmpty he, overlay_none]
  · cases hb : c.mBuffer with
    | none =>
      refine absurd ?_ he
      unfold CameraMetadata.isEmpty CameraMetadata.entryCount
      rw [CameraMetadata.packet_none hb]
      rfl
    | some buffer =>
      obtain ⟨src, hget, hsrc⟩ := hs.holds.packet buffer hb
      have hpk := CameraMetadata.packet_of_get hb hget
      have hec : c.entryCount h = src.entryCount := by
        unfold CameraMetadata.entryCount
        rw [hpk]
      have hdc : c.dataCount h = src.dataCount := by
        unfold CameraMetadata.dataCount
        rw [hpk]
        rfl
      rw [hec, hdc] at hr
      have hlaid := merge_fold hmalloc hsrc (hs.unique src hpk) hget hp (hs.other buffer hb) hr le_rfl
      have htake : src.abs.take src.entryCount = src.abs :=
        List.take_of_length_le (length_abs src).le
      rw [merge_eq ops p he hs.holds.unlocked hb hpk]
      refine ⟨hlaid.holds, ?_, hlaid.frame, rfl, rfl⟩
      have hvalues := hlaid.values
      rw [htake] at hvalues
      rw [CameraMetadata.values_of_packet hpk]
      exact hvalues

section After

variable {r : Heap × Parameters × Option CameraMetadata} {b : CameraMetadata}
  (hm : Merged ops h p c r) (hs : MergeSource ops h p b)

include hm hs

/-- A merge leaves the packets of the other objects. -/
theorem Merged.packet_other : b.packet r.1 = b.packet h := by
  cases hb : b.mBuffer with
  | none => rw [CameraMetadata.packet_none hb, CameraMetadata.packet_none hb]
  | some q =>
    obtain ⟨m, hget, -⟩ := hs.holds.packet q hb
    rw [CameraMetadata.packet_of_get hb hget,
      CameraMetadata.packet_of_get hb (hm.frame.others q m (hs.other q hb) hget)]

theorem Merged.values_other : b.values r.1 = b.values h := by
  funext tag
  unfold CameraMetadata.values
  rw [hm.packet_other hs]

/-- What could be merged before can be merged afterwards. -/
theorem Merged.mergeSource : MergeSource ops r.1 r.2.1 b := by
  refine ⟨⟨hs.holds.unlocked, fun q hq => ?_⟩, fun m hpk => ?_, fun q hq hown => ?_⟩
  · obtain ⟨m, hget, hmt⟩ := hs.holds.packet q hq
    exact ⟨m, hm.frame.others q m (hs.other q hq) hget, hmt⟩
  · rw [hm.packet_other hs] at hpk
    exact hs.unique m hpk
  · obtain ⟨m, hget, -⟩ := hs.holds.packet q hq
    rcases hm.frame.own q hown with ho | hnew
    · exact hs.other q hq ho
    · rw [hget] at hnew
      cases hnew

end After

/-- The search in an object that is a map. -/
theorem find_of_holds (hp : c.Holds (IsMap ops (2 ^ 32)) h) (tag : ℕ) :
    (c.find L h tag).map MetadataEntry.typed = c.values h tag := by
  unfold CameraMetadata.find CameraMetadata.values
  cases hpk : c.packet h with
  | none => rfl
  | some m =>
    obtain ⟨q, hb, hm⟩ := Option.bind_eq_some_iff.mp hpk
    exact (hp.of_get hb hm).find_eq tag

end Whole

/-- The values `find` returns on the metadata of `p`. -/
def found (L : Libc) (h : Heap) (p : Parameters) (tag : ℕ) : Option TypedEntry :=
  (p.mMetadata.find L h tag).map MetadataEntry.typed

/-- The values found after a merge. -/
theorem Merged.found_eq {L : Libc} {ops : Option VendorTagOps} {h : Heap} {p : Parameters}
    {m : CameraMetadata} {r : Heap × Parameters × Option CameraMetadata} (hm : Merged ops h p m r) :
    found L r.1 r.2.1 = overlay (m.values h) (p.mMetadata.values h) := by
  funext tag
  exact (find_of_holds hm.holds tag).trans (congrFun hm.values tag)

end Parameters

end IntelCamera
