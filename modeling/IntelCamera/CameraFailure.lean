import IntelCamera.CameraMap

/-!
# CameraFailure — what a failed `update` or `append` leaves

Both calls make room with `resizeIfNeeded` and then write to the packet; `commit` is the second part.
A write that fails leaves its packet alone, so all that matters is what the resize does to the
entries.  It keeps them when the packet has the room, and when a larger packet below 4 GiB is handed
out.  When the larger packet is not handed out, the object is left without any packet; and the capacities
of a packet of 4 GiB are cut to 32 bits, so that it may not hold what is moved there.
-/

namespace IntelCamera

open Lib

namespace CameraMetadata

/-- The entries of an object in their order; none without a packet. -/
def entryList (h : Heap) (c : CameraMetadata) : List TypedEntry :=
  ((c.packet h).map Metadata.abs).getD []

/-- Unless it succeeds, the call with the result `r` leaves the entries. -/
def Atomic (h : Heap) (c : CameraMetadata) (r : Status × Heap × CameraMetadata) : Prop :=
  r.1 ≠ .ok → entryList r.2.1 r.2.2 = entryList h c

/-- The packet of the object, if it has one, is live, below 4 GiB and laid out as the library lays
packets out. -/
def Owns (h : Heap) (c : CameraMetadata) : Prop :=
  ∀ p, c.mBuffer = some p → ∃ m, h.get p = some m ∧ Sound (2 ^ 32) m

/-! ### When the entries are kept -/

/-- `resizeIfNeeded` asks for a larger packet. -/
def Grows (m : Metadata) (extraEntries extraData : ℕ) : Prop :=
  m.entryCapacity < grownCapacity m.entryCount m.entryCapacity extraEntries ∨
    m.dataCapacity < grownCapacity m.dataCount m.dataCapacity extraData

/-- The size it asks for. -/
def grownSize (m : Metadata) (extraEntries extraData : ℕ) : ℕ :=
  calculateCameraMetadataSize (grownCapacity m.entryCount m.entryCapacity extraEntries)
    (grownCapacity m.dataCount m.dataCapacity extraData)

/-- The packet asked for is below 4 GiB. -/
def Moderate (h : Heap) (c : CameraMetadata) (extraEntries extraData : ℕ) : Prop :=
  ∀ m, c.packet h = some m → grownSize m extraEntries extraData < 2 ^ 32

/-- **The condition**: there is nothing to lose, or there is room already, or the larger packet is below
4 GiB and handed out. -/
def CanKeep (L : Libc) (h : Heap) (c : CameraMetadata) (extraEntries extraData : ℕ) : Prop :=
  ∀ m, c.packet h = some m → m.entries = [] ∨ ¬ Grows m extraEntries extraData ∨
    grownSize m extraEntries extraData < 2 ^ 32 ∧ (L.malloc (grownSize m extraEntries extraData)).isSome

/-! ### A new packet -/

section Fresh

variable {L : Libc} {ec dc : ℕ} {m fresh : Metadata}

theorem allocate_none (hL : L.malloc (calculateCameraMetadataSize ec dc) = none) :
    allocateCameraMetadata L ec dc = none := by
  unfold allocateCameraMetadata
  dsimp only
  rw [hL]

theorem abs_nil (he : m.entries = []) : m.abs = [] := by
  unfold Metadata.abs
  rw [he]
  rfl

theorem abs_eq_nil_iff : m.abs = [] ↔ m.entries = [] := by
  unfold Metadata.abs
  exact List.map_eq_nil_iff

/-- No entries are appended to a new packet, whether the append is refused or not. -/
theorem append_fresh_nil (he : m.entries = []) (hf : fresh.entries = []) :
    (appendCameraMetadata fresh m).2.entries = [] := by
  unfold appendCameraMetadata movedEntries
  split_ifs
  · exact hf
  · exact hf
  · simp [he, hf]
  · simp [he, hf]

end Fresh

/-! ### The write after the resize -/

/-- The packet is written with `f`; a null packet is answered with `ERROR`. -/
def commit (f : Metadata → Status × Metadata) (h : Heap) (c : CameraMetadata) :
    Status × Heap × CameraMetadata :=
  match c.mBuffer, c.packet h with
  | some p, some m => ((f m).1, h.set p (f m).2, c)
  | _, _ => (.error, h, c)

section Commit

variable {L : Libc} {h : Heap} {c : CameraMetadata} {p : ℕ} {m : Metadata}
  {f : Metadata → Status × Metadata}

theorem entryList_of_get (hb : c.mBuffer = some p) (hp : h.get p = some m) :
    entryList h c = m.abs := by
  unfold entryList
  rw [packet_of_get hb hp]
  rfl

theorem entryList_none (hb : c.mBuffer = none) : entryList h c = [] := by
  unfold entryList
  rw [packet_none hb]
  rfl

theorem commit_of_get (hb : c.mBuffer = some p) (hp : h.get p = some m) :
    commit f h c = ((f m).1, h.set p (f m).2, c) := by
  unfold commit
  rw [hb, packet_of_get hb hp]

theorem commit_none (hb : c.mBuffer = none) : commit f h c = (.error, h, c) := by
  unfold commit
  rw [hb]

/-- A write that fails leaves the entries of its packet. -/
theorem commit_refused (hclean : ∀ m, (f m).1 ≠ .ok → (f m).2 = m) (hb : c.mBuffer = some p)
    (hp : h.get p = some m) : Atomic h c (commit f h c) := by
  rw [commit_of_get hb hp]
  intro hne
  dsimp only at hne ⊢
  rw [hclean m hne, entryList_of_get hb (Store.get_set (Store.lt_next hp)), entryList_of_get hb hp]

/-- What `resizeIfNeeded` does to an object with a packet: nothing, the packet is lost, or its entries
are moved to a new packet, for certain if there are none or the new packet is below 4 GiB. -/
theorem resizeIfNeeded_cases (hb : c.mBuffer = some p) (hp : h.get p = some m)
    (hs : Sound (2 ^ 32) m) (n d : ℕ) :
    (¬ Grows m n d ∧ resizeIfNeeded L h c n d = (.ok, h, c)) ∨
      (Grows m n d ∧ L.malloc (grownSize m n d) = none ∧
        resizeIfNeeded L h c n d = (.noMemory, h, { c with mBuffer := none })) ∨
      (Grows m n d ∧ (L.malloc (grownSize m n d)).isSome ∧ ∃ m',
        resizeIfNeeded L h c n d = (.ok, (h.alloc m').free p, { c with mBuffer := some h.next }) ∧
        (m.entries = [] ∨ grownSize m n d < 2 ^ 32 → m'.abs = m.abs)) := by
  unfold resizeIfNeeded
  rw [hb, packet_of_get hb hp]
  dsimp only
  by_cases hg : Grows m n d
  · refine Or.inr ?_
    unfold Grows at hg
    rw [if_pos hg]
    cases hL : L.malloc (grownSize m n d) with
    | none => exact Or.inl ⟨hg, rfl, by rw [allocate_none hL]⟩
    | some block =>
      obtain ⟨fresh, hf⟩ := Option.isSome_iff_exists.mp
        (allocate_isSome (L := L) _ _ (Option.isSome_of_eq_some hL))
      refine Or.inr ⟨hg, rfl, _, by rw [hf], fun hkeep => ?_⟩
      rcases hkeep with hnil | hsz
      · rw [abs_nil hnil, abs_nil (append_fresh_nil hnil (allocate_fresh hf).2.1)]
      · have hec := le_grownCapacity m.entryCount m.entryCapacity n
        have hdc := le_grownCapacity m.dataCount m.dataCapacity d
        exact (append_allocated le_rfl hs hsz (by omega) (by omega) hf).2.2.1
  · refine Or.inl ⟨hg, ?_⟩
    unfold Grows at hg
    rw [if_neg hg]

/-- An object without a packet has nothing to lose. -/
theorem atomic_commit_of_none (hb : c.mBuffer = none) (hclean : ∀ m, (f m).1 ≠ .ok → (f m).2 = m)
    (n d : ℕ) :
    Atomic h c (commit f (resizeIfNeeded L h c n d).2.1 (resizeIfNeeded L h c n d).2.2) := by
  unfold resizeIfNeeded
  rw [hb]
  dsimp only
  cases hf : allocateCameraMetadata L (n * 2) (d * 2) with
  | none =>
    dsimp only
    rw [commit_none hb]
    exact fun _ => rfl
  | some fresh =>
    have hget : (h.alloc fresh).get h.next = some fresh := Store.get_alloc_next
    have hrest := commit_refused (c := { c with mBuffer := some h.next }) hclean rfl hget
    intro hne
    rw [hrest hne, entryList_of_get rfl hget, entryList_none hb]
    exact abs_nil (allocate_fresh hf).2.1

/-- **Resize and write are atomic if the entries can be kept**, and below 4 GiB only then. -/
theorem atomic_commit_iff (hc : Owns h c) {n d : ℕ} (hclean : ∀ m, (f m).1 ≠ .ok → (f m).2 = m) :
    (CanKeep L h c n d →
        Atomic h c (commit f (resizeIfNeeded L h c n d).2.1 (resizeIfNeeded L h c n d).2.2)) ∧
      (Moderate h c n d →
        Atomic h c (commit f (resizeIfNeeded L h c n d).2.1 (resizeIfNeeded L h c n d).2.2) →
        CanKeep L h c n d) := by
  cases hb : c.mBuffer with
  | none =>
    refine ⟨fun _ => atomic_commit_of_none hb hclean n d, fun _ _ m hm => ?_⟩
    rw [packet_none hb] at hm
    cases hm
  | some p =>
    obtain ⟨m, hp, hs⟩ := hc p hb
    have hpk := packet_of_get hb hp
    have hkeep : CanKeep L h c n d ↔ (m.entries = [] ∨ ¬ Grows m n d ∨
        grownSize m n d < 2 ^ 32 ∧ (L.malloc (grownSize m n d)).isSome) := by
      unfold CanKeep
      rw [hpk]
      exact ⟨fun hk => hk m rfl, fun hk m' hm' => by obtain rfl := Option.some.inj hm'; exact hk⟩
    rw [hkeep]
    rcases resizeIfNeeded_cases (L := L) hb hp hs n d with
      ⟨hg, hr⟩ | ⟨hg, hL, hr⟩ | ⟨hg, hL, m', hr, hmoved⟩
    · rw [hr]
      exact ⟨fun _ => commit_refused hclean hb hp, fun _ _ => Or.inr (Or.inl hg)⟩
    · -- the packet is lost
      have hiff : Atomic h c (commit f h { c with mBuffer := none }) ↔ m.entries = [] := by
        rw [commit_none rfl]
        unfold Atomic
        rw [entryList_none rfl, entryList_of_get hb hp, ← abs_eq_nil_iff, eq_comm]
        exact ⟨fun ha => ha (by simp), fun ha _ => ha⟩
      rw [hr, hL]
      dsimp only
      rw [hiff]
      refine ⟨fun hk => ?_, fun _ hnil => Or.inl hnil⟩
      rcases hk with hnil | hno | ⟨-, hsome⟩
      · exact hnil
      · exact absurd hg hno
      · cases hsome
    · -- the new packet is not the one that was freed
      have hget : ((h.alloc m').free p).get h.next = some m' := by
        rw [Store.get_free_ne (Nat.ne_of_gt (Store.lt_next hp)), Store.get_alloc_next]
      rw [hr]
      refine ⟨fun hk hne => ?_, fun hsz _ => Or.inr (Or.inr ⟨hsz m hpk, hL⟩)⟩
      have habs : m'.abs = m.abs := by
        refine hmoved ?_
        rcases hk with hnil | hno | ⟨hsz, -⟩
        · exact Or.inl hnil
        · exact absurd hg hno
        · exact Or.inr hsz
      rw [commit_refused (c := { c with mBuffer := some h.next }) hclean rfl hget hne,
        entryList_of_get rfl hget, habs, entryList_of_get hb hp]

end Commit

/-! ### The two calls -/

section Calls

variable {L : Libc} {ops : Option VendorTagOps} {h : Heap} {c : CameraMetadata}

theorem atomic_congr {r r' : Status × Heap × CameraMetadata} (h1 : r.1 = .ok ↔ r'.1 = .ok)
    (h2 : r.2 = r'.2) : Atomic h c r ↔ Atomic h c r' := by
  unfold Atomic
  rw [h2, ne_eq, ne_eq, h1]

/-- A call that changes nothing. -/
theorem atomic_same (res : Status) : Atomic h c (res, h, c) := fun _ => rfl

theorem store_refused {m : Metadata} {tag n : ℕ} {data : List UInt8}
    (hne : (store L ops m tag data n).1 ≠ .ok) : (store L ops m tag data n).2 = m := by
  unfold store at hne ⊢
  split at hne
  · exact add_refused hne
  · exact update_refused hne

/-- A resize that fails leaves no packet. -/
theorem resizeIfNeeded_failed (hc : Live h c) {n d : ℕ} (hr : (resizeIfNeeded L h c n d).1 ≠ .ok) :
    (resizeIfNeeded L h c n d).2.2.mBuffer = none := by
  unfold resizeIfNeeded at hr ⊢
  split at hr
  · dsimp only at hr ⊢
    split_ifs at hr ⊢
    · split at hr
      · rfl
      · exact absurd rfl hr
    · exact absurd rfl hr
  · next hno =>
    cases hb : c.mBuffer with
    | none =>
      split at hr
      · exact hb
      · exact absurd rfl hr
    | some p =>
      obtain ⟨m, hm⟩ := Option.isSome_iff_exists.mp (hc p hb)
      exact absurd (packet_of_get hb hm) (hno p m hb)

theorem Owns.live (hc : Owns h c) : Live h c := by
  intro p hb
  obtain ⟨m, hp, -⟩ := hc p hb
  rw [hp]
  rfl

/-- An update is refused before anything is done. -/
def Refused (ops : Option VendorTagOps) (c : CameraMetadata) (tag : ℕ) (type : MetaType)
    (inside : Option ℕ) : Prop :=
  c.mLocked = true ∨ getCameraMetadataTagType ops tag ≠ some type ∨
    inside ≠ none ∧ inside = c.mBuffer

theorem update_of_refused {tag : ℕ} {type : MetaType} {inside : Option ℕ}
    (hr : Refused ops c tag type inside) (data : List UInt8) (n : ℕ) :
    ∃ res, update L ops h c tag type inside data n = (res, h, c) := by
  unfold update
  split_ifs with hl
  · exact ⟨_, rfl⟩
  · rcases hr with hl' | ht | hin
    · exact absurd hl' hl
    · unfold checkType
      cases hty : getCameraMetadataTagType ops tag with
      | none => exact ⟨_, rfl⟩
      | some t =>
        have hne : t ≠ type := fun he => ht (by rw [hty, he])
        dsimp only
        rw [if_pos hne]
        exact ⟨_, rfl⟩
    · split
      · unfold updateImpl
        rw [if_neg hl]
        split
        · exact ⟨_, rfl⟩
        · rw [if_pos hin]
          exact ⟨_, rfl⟩
      · exact ⟨_, rfl⟩

/-- An update that is not refused makes room and stores the value. -/
theorem update_commit (hc : Live h c) {tag : ℕ} {type : MetaType} {inside : Option ℕ}
    (hr : ¬ Refused ops c tag type inside) (data : List UInt8) (n : ℕ) :
    Atomic h c (update L ops h c tag type inside data n) ↔
      Atomic h c (commit (fun m => store L ops m tag data n)
        (resizeIfNeeded L h c 1 (calculateCameraMetadataEntryDataSize type.code n)).2.1
        (resizeIfNeeded L h c 1 (calculateCameraMetadataEntryDataSize type.code n)).2.2) := by
  unfold Refused at hr
  rw [not_or, not_or, not_not] at hr
  obtain ⟨hl, ht, hin⟩ := hr
  have hcheck : checkType ops tag type = .ok := by
    unfold checkType
    rw [ht]
    exact if_neg (not_not.mpr rfl)
  unfold update
  rw [if_neg hl, hcheck]
  dsimp only
  unfold updateImpl
  rw [if_neg hl, ht]
  dsimp only
  rw [if_neg hin]
  split
  · next h' c' he =>
    rw [he]
    exact Iff.rfl
  · next hno =>
    have hne : (resizeIfNeeded L h c 1 (calculateCameraMetadataEntryDataSize type.code n)).1 ≠ .ok :=
      fun hok => hno _ _ (Prod.ext hok rfl)
    rw [commit_none (resizeIfNeeded_failed hc hne)]
    exact atomic_congr (iff_of_false hne (by simp)) rfl

/-- `resizeIfNeeded` leaves the packets of others, whether it succeeds or not. -/
theorem resizeIfNeeded_frame (n d : ℕ) :
    Frame h c (resizeIfNeeded L h c n d).2.1 (resizeIfNeeded L h c n d).2.2 := by
  have hnull : Frame h c h { c with mBuffer := none } :=
    ⟨fun _ _ _ hm => hm, fun p hp => by cases hp⟩
  unfold resizeIfNeeded
  split
  · next p m hb _ =>
    dsimp only
    split_ifs
    · split
      · exact hnull
      · exact frame_free hb (frame_alloc rfl _)
    · exact Frame.refl h c
  · split
    · exact Frame.refl h c
    · exact frame_alloc rfl _

/-- An append to an unlocked object makes room and appends the entries. -/
theorem append_commit (hl : c.mLocked = false) {q : ℕ} {src : Metadata} (hq : h.get q = some src)
    (hne : c.mBuffer ≠ some q) :
    append L h c (some q) = some (commit (fun m => appendCameraMetadata m src)
      (resizeIfNeeded L h c src.entryCount src.dataCount).2.1
      (resizeIfNeeded L h c src.entryCount src.dataCount).2.2) := by
  have hq' := (resizeIfNeeded_frame (L := L) (h := h) (c := c) src.entryCount src.dataCount).others q
    src hne hq
  unfold append commit
  rw [if_neg (by rw [hl]; exact Bool.false_ne_true), Option.bind_some, hq]
  dsimp only
  generalize resizeIfNeeded L h c src.entryCount src.dataCount = r at hq' ⊢
  obtain ⟨res, h', c'⟩ := r
  dsimp only at hq' ⊢
  cases c'.mBuffer with
  | none => rfl
  | some p =>
    cases c'.packet h' with
    | none => rfl
    | some m => rw [Option.bind_some, hq']

/-- **Updates and appends are atomic on failure if the entries can be kept**: the call is refused at
once, or the condition on the room holds.  As long as the packet asked for is below 4 GiB, they are only
then. -/
theorem atomic_iff (L : Libc) (ops : Option VendorTagOps) (hc : Owns h c) :
    (∀ tag type inside data n,
      (Refused ops c tag type inside ∨
          CanKeep L h c 1 (calculateCameraMetadataEntryDataSize type.code n) →
        Atomic h c (update L ops h c tag type inside data n)) ∧
      (Moderate h c 1 (calculateCameraMetadataEntryDataSize type.code n) →
        (Atomic h c (update L ops h c tag type inside data n) ↔ Refused ops c tag type inside ∨
          CanKeep L h c 1 (calculateCameraMetadataEntryDataSize type.code n)))) ∧
    ∀ q src, h.get q = some src → c.mBuffer ≠ some q → ∃ r, append L h c (some q) = some r ∧
      (c.mLocked = true ∨ CanKeep L h c src.entryCount src.dataCount → Atomic h c r) ∧
      (Moderate h c src.entryCount src.dataCount →
        (Atomic h c r ↔ c.mLocked = true ∨ CanKeep L h c src.entryCount src.dataCount)) := by
  refine ⟨fun tag type inside data n => ?_, fun q src hq hne => ?_⟩
  · by_cases hr : Refused ops c tag type inside
    · obtain ⟨res, hres⟩ := update_of_refused (L := L) (h := h) hr data n
      rw [hres]
      exact ⟨fun _ => atomic_same res, fun _ => iff_of_true (atomic_same res) (Or.inl hr)⟩
    · rw [update_commit hc.live hr data n, or_iff_right hr]
      obtain ⟨hif, honly⟩ := atomic_commit_iff (L := L) (n := 1)
        (d := calculateCameraMetadataEntryDataSize type.code n) hc
        fun m (hm : (store L ops m tag data n).1 ≠ .ok) => store_refused hm
      exact ⟨hif, fun hsz => ⟨honly hsz, hif⟩⟩
  · cases hl : c.mLocked with
    | true =>
      refine ⟨(.invalidOperation, h, c), ?_, fun _ => atomic_same _,
        fun _ => iff_of_true (atomic_same _) (Or.inl rfl)⟩
      unfold append
      rw [if_pos hl]
    | false =>
      refine ⟨_, append_commit hl hq hne, ?_⟩
      rw [or_iff_right Bool.false_ne_true]
      obtain ⟨hif, honly⟩ := atomic_commit_iff (L := L) (n := src.entryCount) (d := src.dataCount) hc
        fun m (hm : (appendCameraMetadata m src).1 ≠ .ok) => append_refused hm
      exact ⟨hif, fun hsz => ⟨honly hsz, hif⟩⟩

end Calls

/-! ### A failed allocation -/

/-- A C library whose memory is used up. -/
def exhaustedLibc : Libc := { referenceLibc with malloc := fun _ => none }

/-- An object with one entry and no room for data. -/
def oneEntry : Heap × CameraMetadata :=
  (update referenceLibc none .empty .empty controlAeMode .byte none [1] 1).2

theorem oneEntry_owns : Owns oneEntry.1 oneEntry.2 := by
  obtain ⟨h, c, he, hu⟩ := update_first .empty [1] (by decide)
  obtain ⟨rfl, rfl⟩ : h = oneEntry.1 ∧ c = oneEntry.2 := by
    have he' : update referenceLibc none .empty .empty controlAeMode .byte none [1] 1 = (.ok, h, c) := he
    unfold oneEntry
    rw [he']
    exact ⟨rfl, rfl⟩
  intro p hp
  obtain ⟨m, hm, hty⟩ := hu.holds.packet p hp
  exact ⟨m, hm, hty.sound⟩

/-- The heap of `oneEntry` with another packet, of two descending entries. -/
def besideEntry : Heap := oneEntry.1.alloc descending

theorem besideEntry_owns : Owns besideEntry oneEntry.2 := by
  intro p hp
  obtain ⟨m, hm, hs⟩ := oneEntry_owns p hp
  refine ⟨m, ?_, hs⟩
  unfold besideEntry
  rw [Store.get_alloc_ne (Nat.ne_of_lt (Store.lt_next hm)), hm]

/-- A value that needs a larger packet, and an append that does, with memory left. -/
theorem atomic_iff_oneEntry :
    Atomic oneEntry.1 oneEntry.2 (update referenceLibc none oneEntry.1 oneEntry.2
      sensorExposureTime .int64 none (i64Bytes [5]) 1) ∧
    ∃ r, append referenceLibc besideEntry oneEntry.2 (some oneEntry.1.next) = some r ∧
      Atomic besideEntry oneEntry.2 r := by
  have hsize : ∀ m ∈ packet oneEntry.1 oneEntry.2, grownSize m 1 8 < 2 ^ 32 := by decide
  have hsize' : ∀ m ∈ packet besideEntry oneEntry.2, grownSize m 2 0 < 2 ^ 32 := by decide
  constructor
  · exact ((atomic_iff referenceLibc none oneEntry_owns).1 _ _ _ _ _).1
      (Or.inr fun m hm => Or.inr (Or.inr ⟨hsize m hm, rfl⟩))
  · obtain ⟨r, hr, hif, -⟩ := (atomic_iff referenceLibc none besideEntry_owns).2 oneEntry.1.next
      descending Store.get_alloc_next (by decide)
    exact ⟨r, hr, hif (Or.inr fun m hm => Or.inr (Or.inr ⟨hsize' m hm, rfl⟩))⟩

/-- Without memory the value is refused and the entry that was there is lost. -/
theorem oneEntry_not_atomic : Owns oneEntry.1 oneEntry.2 ∧ ¬ Atomic oneEntry.1 oneEntry.2
    (update exhaustedLibc none oneEntry.1 oneEntry.2 sensorExposureTime .int64 none (i64Bytes [5]) 1) := by
  refine ⟨oneEntry_owns, ?_⟩
  unfold Atomic
  decide

end CameraMetadata

end IntelCamera
