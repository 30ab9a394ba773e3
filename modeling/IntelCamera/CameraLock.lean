import IntelCamera.CameraFailure

/-!
# CameraLock — what the lock of a `CameraMetadata` protects

Any number of objects, and packets that no object owns.  The invariant `Owned` says that the packets
of the objects are live and that no packet has two owners; it is what makes a method of one object
harmless to the others.  A method of a locked object does nothing, so that a step changes neither the
pointer nor the packet of an object that is locked before it.  The one method that looks at the second
lock too late is `acquire(CameraMetadata &)`: the object that should have taken the packet over has
given up its own by then.
-/

namespace IntelCamera

open Lib

namespace CameraMetadata

/-! ### What each method leaves alone, successful or not -/

section Frames

variable {L : Libc} {ops : Option VendorTagOps} {h h' : Heap} {c c' : CameraMetadata}

/-- A method of one object: the packets of the others stay, and the packet it ends with is live. -/
structure Method (h : Heap) (c : CameraMetadata) (r : Heap × CameraMetadata) : Prop where
  frame : Frame h c r.1 r.2
  live : Live r.1 r.2

theorem Live.set (hl : Live h c) (p : ℕ) (m : Metadata) : Live (h.set p m) c := by
  intro q hq
  obtain ⟨x, hx⟩ := Option.isSome_iff_exists.mp (hl q hq)
  by_cases hqp : q = p
  · subst hqp
    rw [Store.get_set (Store.lt_next hx)]
    rfl
  · rw [Store.get_set_ne hqp, hx]
    rfl

theorem Method.refl (hl : Live h c) : Method h c (h, c) := ⟨Frame.refl h c, hl⟩

theorem Method.set (hm : Method h c (h', c')) {p : ℕ} (hb : c'.mBuffer = some p) (m : Metadata) :
    Method h c (h'.set p m, c') :=
  ⟨hm.frame.trans (frame_set hb m), hm.live.set p m⟩

theorem resizeIfNeeded_method (hl : Live h c) (n d : ℕ) :
    Method h c (resizeIfNeeded L h c n d).2 :=
  ⟨resizeIfNeeded_frame n d, hl.resizeIfNeeded n d⟩

theorem updateImpl_frame (tag : ℕ) (inside : Option ℕ) (data : List UInt8) (n : ℕ) :
    Frame h c (updateImpl L ops h c tag inside data n).2.1
      (updateImpl L ops h c tag inside data n).2.2 := by
  unfold updateImpl
  split
  · exact Frame.refl h c
  · split
    · exact Frame.refl h c
    · next t _ =>
      split_ifs
      · exact Frame.refl h c
      · have hr := resizeIfNeeded_frame (L := L) (h := h) (c := c) 1
          (calculateCameraMetadataEntryDataSize t.code n)
        dsimp only
        split
        · next h₁ c₁ he =>
          rw [he] at hr
          split
          · next p m hb _ => exact hr.trans (frame_set hb _)
          · exact hr
        · exact hr

theorem update_method (hl : Live h c) (tag : ℕ) (type : MetaType) (inside : Option ℕ)
    (data : List UInt8) (n : ℕ) : Method h c (update L ops h c tag type inside data n).2 := by
  refine ⟨?_, hl.update tag type inside data n⟩
  unfold update
  split
  · exact Frame.refl h c
  · split
    · exact updateImpl_frame tag inside data n
    · exact Frame.refl h c

theorem append_method (hl : Live h c) {other : Option ℕ} {r : Status × Heap × CameraMetadata}
    (hr : append L h c other = some r) : Method h c r.2 := by
  unfold append at hr
  split_ifs at hr
  · obtain rfl := Option.some.inj hr
    exact Method.refl hl
  · split at hr
    · cases hr
    · next src _ =>
      have hm := resizeIfNeeded_method (L := L) hl src.entryCount src.dataCount
      dsimp only at hr
      split at hr
      · next p m hb _ =>
        split at hr
        · cases hr
        · obtain rfl := Option.some.inj hr
          exact hm.set hb _
      · obtain rfl := Option.some.inj hr
        exact hm

theorem sort_method (hl : Live h c) : Method h c ((sort L h c).2, c) := by
  unfold sort
  split_ifs
  · exact Method.refl hl
  · split
    · next p m hb _ => exact (Method.refl hl).set hb _
    · exact Method.refl hl

theorem erase_method (hl : Live h c) (tag : ℕ) : Method h c ((erase L h c tag).2, c) := by
  unfold erase
  split_ifs
  · exact Method.refl hl
  · split
    · next p m hb _ =>
      split
      · exact Method.refl hl
      · exact (Method.refl hl).set hb _
    · exact Method.refl hl

/-- Giving up the packet, freed or not. -/
theorem Method.drop (hothers : ∀ q m, c.mBuffer ≠ some q → h.get q = some m → h'.get q = some m)
    (hb : c'.mBuffer = none) : Method h c (h', c') :=
  ⟨⟨hothers, fun p hp => by rw [hb] at hp; cases hp⟩, fun p hp => by rw [hb] at hp; cases hp⟩

theorem clear_others (q : ℕ) (m : Metadata) (hq : c.mBuffer ≠ some q) (hm : h.get q = some m) :
    (clear h c).1.get q = some m := by
  unfold clear
  split_ifs
  · exact hm
  · split
    · exact hm
    · next p hb =>
      have hne : q ≠ p := by
        rintro rfl
        exact hq hb
      rw [Store.get_free_ne hne]
      exact hm

theorem clear_buffer (hl : c.mLocked = false) : (clear h c).2 = { c with mBuffer := none } := by
  unfold clear
  rw [if_neg (by rw [hl]; exact Bool.false_ne_true)]
  split
  · next hb =>
    obtain ⟨b, l⟩ := c
    obtain rfl : b = none := hb
    rfl
  · rfl

theorem release_locked (hl : c.mLocked = true) : release c = (none, c) := by
  unfold release
  rw [if_pos hl]

/-- A clone is a new packet, or none. -/
theorem clonePacket_method (buffer : Option ℕ) {d : CameraMetadata}
    (hd : d.mBuffer = (clonePacket L h buffer).2) :
    Method h .empty ((clonePacket L h buffer).1, d) := by
  unfold clonePacket at hd ⊢
  split at hd
  · exact Method.drop (fun _ _ _ hm => hm) hd
  · next m _ =>
    refine ⟨frame_alloc hd m, fun q hq => ?_⟩
    rw [hd] at hq
    obtain rfl := Option.some.inj hq
    rw [Store.get_alloc_next]
    rfl

theorem assign_method (hl : Live h c) (buffer : Option ℕ) : Method h c (assign L h c buffer) := by
  unfold assign
  split_ifs with hlock hself
  · exact Method.refl hl
  · exact Method.refl hl
  · have hclone := clonePacket_method (L := L) (h := h) buffer
      (d := ⟨(clonePacket L h buffer).2, c.mLocked⟩) rfl
    dsimp only
    rw [clear_buffer (Bool.eq_false_iff.mpr hlock)]
    -- the packet that is freed was there before the clone was made
    have hkeep : ∀ q m, c.mBuffer ≠ some q → (clonePacket L h buffer).1.get q = some m →
        (clear (clonePacket L h buffer).1 c).1.get q = some m := fun q m => clear_others q m
    refine ⟨⟨fun q m hq hm => hkeep q m hq (hclone.frame.others q m (by simp [empty]) hm), ?_⟩, ?_⟩
    · exact fun p hp => Or.inr ((hclone.frame.own p hp).resolve_left (by simp [empty]))
    · intro q hq
      have hnew := (hclone.frame.own q hq).resolve_left (by simp [empty])
      obtain ⟨m, hm⟩ := Option.isSome_iff_exists.mp (hclone.live q hq)
      dsimp only at hm ⊢
      rw [hkeep q m (fun hb => ?_) hm]
      · rfl
      · obtain ⟨x, hx⟩ := Option.isSome_iff_exists.mp (hl q hb)
        rw [hnew] at hx
        cases hx

end Frames

end CameraMetadata

namespace Objects

/-! ### Calls -/

/-- The calls between objects: those of `Op`, and those that hand packets over or use the lock.  The
packets the caller brings along come from `allocate` and `release`. -/
inductive Call
  | base (op : Op)
  | allocate (m : Metadata)
  | assignBuffer (o : ℕ) (buffer : Option ℕ)
  | release (o : ℕ)
  | clear (o : ℕ)
  | acquire (o : ℕ) (buffer : Option ℕ)
  | acquireFrom (o other : ℕ)
  | append (o other : ℕ)
  | appendBuffer (o : ℕ) (buffer : Option ℕ)
  | getAndLock (o : ℕ)
  | unlock (o : ℕ) (buffer : Option ℕ)

/-- `append(const camera_metadata_t *)` of the object `o`. -/
def appended (L : Libc) (s : Objects) (o : ℕ) (buffer : Option ℕ) : Option Objects :=
  ((s.objs o).append L s.heap buffer).map fun r => s.put o r.2

/-- `acquire(CameraMetadata &)`: the lock of `other` is looked at by its `release` only. -/
def acquiredFrom (s : Objects) (o other : ℕ) : Objects :=
  if (s.objs o).mLocked then s else
  let released := (s.objs other).release
  let s₁ := s.put other (s.heap, released.2)
  s₁.put o ((s₁.objs o).acquire s₁.heap released.1)

/-- One call, on objects that have been constructed. -/
def call (L : Libc) (ops : Option VendorTagOps) (s : Objects) : Call → Option Objects
  | .base op => step L ops s op
  | .allocate m => some { s with heap := s.heap.alloc m }
  | .assignBuffer o buffer =>
    if o < s.next then some (s.put o ((s.objs o).assign L s.heap buffer)) else none
  | .release o =>
    if o < s.next then some (s.put o (s.heap, (s.objs o).release.2)) else none
  | .clear o => if o < s.next then some (s.put o ((s.objs o).clear s.heap)) else none
  | .acquire o buffer =>
    if o < s.next then some (s.put o ((s.objs o).acquire s.heap buffer)) else none
  | .acquireFrom o other =>
    if o < s.next ∧ other < s.next then some (s.acquiredFrom o other) else none
  | .append o other =>
    if o < s.next ∧ other < s.next then s.appended L o (s.objs other).mBuffer else none
  | .appendBuffer o buffer => if o < s.next then s.appended L o buffer else none
  | .getAndLock o =>
    if o < s.next then some (s.put o (s.heap, (s.objs o).getAndLock)) else none
  | .unlock o buffer =>
    if o < s.next then some (s.put o (s.heap, ((s.objs o).unlock buffer).2)) else none

/-- The objects a call is about. -/
def involved : Call → List ℕ
  | .base (.update o _ _ _ _ _) | .base (.erase o _) | .base (.sort o) | .base (.copy o) => [o]
  | .base (.assign o other) | .base (.swap o other) => [o, other]
  | .base .construct | .allocate _ => []
  | .assignBuffer o _ | .release o | .clear o | .acquire o _ | .appendBuffer o _ => [o]
  | .acquireFrom o other | .append o other => [o, other]
  | .getAndLock o | .unlock o _ => [o]

/-- The call has to be refused because of a lock: that of the object it would change, and for the
calls that change both objects also that of the other. -/
def LockedOut (s : Objects) : Call → Prop
  | .base (.update o _ _ _ _ _) | .base (.erase o _) | .base (.sort o) | .base (.assign o _)
  | .assignBuffer o _ | .release o | .clear o | .acquire o _ | .append o _ | .appendBuffer o _ =>
    (s.objs o).mLocked = true
  | .base (.swap o other) | .acquireFrom o other =>
    (s.objs o).mLocked = true ∨ (s.objs other).mLocked = true
  | .base .construct | .base (.copy _) | .allocate _ | .getAndLock _ | .unlock _ _ => False

/-- What the caller of `acquire` hands over is his to give: a live packet that no object owns. -/
def Handed (s : Objects) : Call → Prop
  | .acquire _ (some p) =>
    (s.heap.get p).isSome ∧ ∀ o < s.next, (s.objs o).mBuffer ≠ some p
  | _ => True

/-- The call does not meet the defect: an object that is to take over the packet of a locked one is
locked itself or has no packet to lose. -/
def Considers (s : Objects) : Call → Prop
  | .acquireFrom o other => (s.objs other).mLocked = true →
    (s.objs o).mLocked = true ∨ (s.objs o).mBuffer = none
  | _ => True

/-! ### One step -/

section Steps

variable {L : Libc} {ops : Option VendorTagOps} {s s' : Objects}

/-- What a call leaves: the invariant, and every object that was locked as it was. -/
structure Safe (s s' : Objects) : Prop where
  owned : Owned s'
  locked : ∀ o, (s.objs o).mLocked = true → Kept s s' o

theorem Owned.safe (hs : Owned s) : Safe s s := ⟨hs, fun o _ => Kept.refl s o⟩

/-- A method that keeps the object and changes its packet. -/
theorem put_heap (s : Objects) (o : ℕ) (h' : Heap) : { s with heap := h' } = s.put o (h', s.objs o) := by
  unfold Objects.put
  rw [Function.update_eq_self]

theorem put_self (s : Objects) (o : ℕ) : s.put o (s.heap, s.objs o) = s :=
  (put_heap s o s.heap).symm

/-- A method that does nothing to a locked object. -/
theorem Owned.method (hs : Owned s) {o : ℕ} (ho : o < s.next) {r : Heap × CameraMetadata}
    (hlock : (s.objs o).mLocked = true → r = (s.heap, s.objs o))
    (hm : (s.objs o).mLocked = false → CameraMetadata.Method s.heap (s.objs o) r) :
    Safe s (s.put o r) ∧ ((s.objs o).mLocked = true → s.put o r = s) := by
  cases hl : (s.objs o).mLocked with
  | true =>
    rw [hlock hl, put_self]
    exact ⟨hs.safe, fun _ => rfl⟩
  | false =>
    obtain ⟨h1, h2⟩ := hs.put ho le_rfl (hm hl).frame.others (hm hl).live (hs.apart (hm hl).frame)
    refine ⟨⟨h1, fun o' ho' => h2 o' ?_⟩, fun h => by cases h⟩
    rintro rfl
    rw [hl] at ho'
    cases ho'

/-- **`acquire(camera_metadata_t *)`** of a packet that no object owns. -/
theorem Owned.acquire (hs : Owned s) {o : ℕ} (ho : o < s.next) {buffer : Option ℕ}
    (hbuf : ∀ p, buffer = some p → (s.heap.get p).isSome ∧ ∀ o', (s.objs o').mBuffer ≠ some p) :
    Safe s (s.put o ((s.objs o).acquire s.heap buffer)) ∧
      ((s.objs o).mLocked = true → s.put o ((s.objs o).acquire s.heap buffer) = s) := by
  unfold CameraMetadata.acquire
  cases hl : (s.objs o).mLocked with
  | true =>
    rw [if_pos rfl, put_self]
    exact ⟨hs.safe, fun _ => rfl⟩
  | false =>
    rw [if_neg Bool.false_ne_true]
    -- the packet taken over is not the one that is freed
    have hlive : CameraMetadata.Live ((s.objs o).clear s.heap).1
        { ((s.objs o).clear s.heap).2 with mBuffer := buffer } := by
      intro p hp
      obtain ⟨hget, hno⟩ := hbuf p hp
      obtain ⟨m, hm⟩ := Option.isSome_iff_exists.mp hget
      rw [CameraMetadata.clear_others p m (hno o) hm]
      rfl
    obtain ⟨h1, h2⟩ := hs.put ho le_rfl CameraMetadata.clear_others hlive
      fun p o' hp _ => (hbuf p hp).2 o'
    refine ⟨⟨h1, fun o' ho' => h2 o' ?_⟩, fun h => by cases h⟩
    rintro rfl
    rw [hl] at ho'
    cases ho'

/-- `release` gives the packet up. -/
theorem Owned.release (hs : Owned s) {o : ℕ} (ho : o < s.next) :
    Safe s (s.put o (s.heap, (s.objs o).release.2)) ∧
      ((s.objs o).mLocked = true → s.put o (s.heap, (s.objs o).release.2) = s) := by
  refine hs.method ho (fun hl => by rw [CameraMetadata.release_locked hl]) fun hl => ?_
  · unfold CameraMetadata.release
    rw [if_neg (by rw [hl]; exact Bool.false_ne_true)]
    exact CameraMetadata.Method.drop (fun _ _ _ hm => hm) rfl

/-- **`acquire(CameraMetadata &)`** is safe for everything that is locked, the object that gives its
packet included. -/
theorem Owned.acquiredFrom (hs : Owned s) {o other : ℕ} (ho : o < s.next) (ho' : other < s.next) :
    Safe s (s.acquiredFrom o other) ∧
      (LockedOut s (.acquireFrom o other) → Considers s (.acquireFrom o other) →
        s.acquiredFrom o other = s) := by
  unfold Objects.acquiredFrom
  cases hl : (s.objs o).mLocked with
  | true =>
    rw [if_pos rfl]
    exact ⟨hs.safe, fun _ _ => rfl⟩
  | false =>
    rw [if_neg Bool.false_ne_true]
    dsimp only
    cases hlo : (s.objs other).mLocked with
    | true =>
      -- the release is refused, and nothing is acquired
      rw [CameraMetadata.release_locked hlo, put_self]
      refine ⟨(hs.acquire ho fun p hp => by cases hp).1, fun _ hcons => ?_⟩
      have hnone : (s.objs o).mBuffer = none :=
        (hcons hlo).resolve_left (by rw [hl]; exact Bool.false_ne_true)
      have hsame : (s.objs o).acquire s.heap none = (s.heap, s.objs o) := by
        unfold CameraMetadata.acquire CameraMetadata.clear
        rw [hl, if_neg Bool.false_ne_true, if_neg Bool.false_ne_true, hnone]
        dsimp only
        rw [← hnone]
      rw [hsame, put_self]
    | false =>
      have hrel : (s.objs other).release =
          ((s.objs other).mBuffer, { s.objs other with mBuffer := none }) := by
        unfold CameraMetadata.release
        rw [if_neg (by rw [hlo]; exact Bool.false_ne_true)]
      obtain ⟨⟨hs₁, hk₁⟩, -⟩ := hs.release ho'
      rw [hrel] at hs₁ hk₁ ⊢
      dsimp only at hs₁ hk₁ ⊢
      -- after the release no object owns the packet
      have hbuf : ∀ p, (s.objs other).mBuffer = some p → (s.heap.get p).isSome ∧
          ∀ o', ((s.put other (s.heap, { s.objs other with mBuffer := none })).objs o').mBuffer ≠
            some p := by
        refine fun p hp => ⟨hs.live other p hp, fun o' hb => ?_⟩
        by_cases he : o' = other
        · subst he
          simp only [Objects.put, Function.update_self] at hb
          cases hb
        · simp only [Objects.put, Function.update_of_ne he] at hb
          exact hs.separate other o' p (Ne.symm he) hp hb
      obtain ⟨⟨hs₂, hk₂⟩, -⟩ := hs₁.acquire (o := o) ho hbuf
      refine ⟨⟨hs₂, fun o' hlock => (hk₁ o' hlock).trans (hk₂ o' ?_)⟩, fun hout _ => ?_⟩
      · have he : o' ≠ other := by
          rintro rfl
          rw [hlo] at hlock
          cases hlock
        simp only [Objects.put, Function.update_of_ne he]
        exact hlock
      · rcases hout with h | h
        · rw [hl] at h
          cases h
        · rw [hlo] at h
          cases h

/-- `swap` of two objects of which none is locked. -/
theorem Owned.swap (hs : Owned s) {o other : ℕ} (ho : o < s.next) (ho' : other < s.next) :
    Safe s { s with objs := Function.update (Function.update s.objs o
        ((s.objs o).swap (s.objs other)).1) other ((s.objs o).swap (s.objs other)).2 } ∧
      (LockedOut s (.base (.swap o other)) →
        { s with objs := Function.update (Function.update s.objs o
          ((s.objs o).swap (s.objs other)).1) other ((s.objs o).swap (s.objs other)).2 } = s) := by
  by_cases hout : LockedOut s (.base (.swap o other))
  · have hsame : (s.objs o).swap (s.objs other) = (s.objs o, s.objs other) := by
      unfold CameraMetadata.swap
      rcases hout with h | h
      · rw [if_pos h]
      · split_ifs <;> rfl
    rw [hsame, Function.update_eq_self, Function.update_eq_self]
    exact ⟨hs.safe, fun _ => rfl⟩
  · refine ⟨?_, fun h => absurd h hout⟩
    have hl : (s.objs o).mLocked = false := Bool.eq_false_iff.mpr fun h => hout (Or.inl h)
    have hlo : (s.objs other).mLocked = false := Bool.eq_false_iff.mpr fun h => hout (Or.inr h)
    rw [CameraMetadata.swap_unlocked hl hlo]
    dsimp only
    rw [← Equiv.comp_swap_eq_update]
    refine ⟨hs.exchange ho ho', fun i hi => ?_⟩
    have h1 : i ≠ o := by
      rintro rfl
      rw [hl] at hi
      cases hi
    have h2 : i ≠ other := by
      rintro rfl
      rw [hlo] at hi
      cases hi
    have hfix : Equiv.swap other o i = i := Equiv.swap_apply_of_ne_of_ne h2 h1
    refine ⟨?_, ?_⟩
    · show (s.objs (Equiv.swap other o i)).mBuffer = _
      rw [hfix]
    · show (s.objs (Equiv.swap other o i)).packet s.heap = _
      rw [hfix]

/-- Taking or leaving a lock changes nothing else. -/
theorem Owned.relock (hs : Owned s) {o : ℕ} (ho : o < s.next) {c' : CameraMetadata}
    (hb : c'.mBuffer = (s.objs o).mBuffer) : Safe s (s.put o (s.heap, c')) := by
  have hm : CameraMetadata.Method s.heap (s.objs o) (s.heap, c') :=
    ⟨⟨fun _ _ _ hm => hm, fun p hp => Or.inl (hb.symm.trans hp)⟩,
      fun p hp => hs.live o p (hb.symm.trans hp)⟩
  obtain ⟨h1, h2⟩ := hs.put ho le_rfl hm.frame.others hm.live (hs.apart hm.frame)
  refine ⟨h1, fun o' _ => ?_⟩
  by_cases he : o' = o
  · subst he
    refine ⟨?_, ?_⟩
    · simp only [Objects.put, Function.update_self]
      exact hb
    · simp only [Objects.put, Function.update_self]
      unfold CameraMetadata.packet
      rw [hb]
  · exact h2 o' he

/-- The methods of `Op`. -/
theorem Owned.step (hs : Owned s) {op : Op} (hst : step L ops s op = some s') :
    Safe s s' ∧ (LockedOut s (.base op) → s' = s) := by
  cases op with
  | construct =>
    obtain rfl := Option.some.inj hst
    exact ⟨⟨⟨hs.live, hs.separate, fun o ho => hs.fresh o (Nat.le_of_succ_le ho)⟩,
      fun _ _ => ⟨rfl, rfl⟩⟩, False.elim⟩
  | update o tag type inside data count =>
    obtain ⟨ho, rfl⟩ := guarded hst
    refine hs.method ho (fun hl => ?_) fun _ => CameraMetadata.update_method (hs.live o) ..
    unfold CameraMetadata.update
    rw [if_pos hl]
  | erase o tag =>
    obtain ⟨ho, rfl⟩ := guarded hst
    rw [put_heap s o]
    refine hs.method ho (fun hl => ?_) fun _ => CameraMetadata.erase_method (hs.live o) tag
    unfold CameraMetadata.erase
    rw [if_pos hl]
  | sort o =>
    obtain ⟨ho, rfl⟩ := guarded hst
    rw [put_heap s o]
    refine hs.method ho (fun hl => ?_) fun _ => CameraMetadata.sort_method (hs.live o)
    unfold CameraMetadata.sort
    rw [if_pos hl]
  | copy o =>
    obtain ⟨ho, rfl⟩ := guarded hst
    have hempty := hs.fresh s.next le_rfl
    have hm := CameraMetadata.clonePacket_method (L := L) (h := s.heap) (s.objs o).mBuffer
      (d := ((s.objs o).copy L s.heap).2) rfl
    rw [← hempty] at hm
    obtain ⟨h1, h2⟩ := hs.put (Nat.lt_succ_self s.next) (Nat.le_succ s.next) hm.frame.others hm.live
      (hs.apart hm.frame)
    refine ⟨⟨h1, fun o' ho' => h2 o' ?_⟩, False.elim⟩
    rintro rfl
    rw [hempty] at ho'
    cases ho'
  | assign o other =>
    obtain ⟨ho, rfl⟩ := guarded hst
    refine hs.method ho.1 (fun hl => ?_) fun _ => CameraMetadata.assign_method (hs.live o) _
    unfold CameraMetadata.assign
    rw [if_pos hl]
  | swap o other =>
    obtain ⟨ho, rfl⟩ := guarded hst
    exact hs.swap ho.1 ho.2

theorem Owned.appended (hs : Owned s) {o : ℕ} (ho : o < s.next) {buffer : Option ℕ}
    (hst : s.appended L o buffer = some s') :
    Safe s s' ∧ ((s.objs o).mLocked = true → s' = s) := by
  obtain ⟨r, hr, rfl⟩ := Option.map_eq_some_iff.mp hst
  refine hs.method ho (fun hl => ?_) fun _ => CameraMetadata.append_method (hs.live o) hr
  unfold CameraMetadata.append at hr
  rw [if_pos hl] at hr
  obtain rfl := Option.some.inj hr
  rfl

/-- **Every call keeps the invariant and what is locked**; one that a lock refuses changes nothing at
all. -/
theorem Owned.call (hs : Owned s) {a : Call} (ha : Handed s a) (hst : call L ops s a = some s') :
    Safe s s' ∧ (LockedOut s a → Considers s a → s' = s) := by
  cases a with
  | base op =>
    have hop : Objects.step L ops s op = some s' := hst
    obtain ⟨h1, h2⟩ := hs.step hop
    exact ⟨h1, fun hout _ => h2 hout⟩
  | allocate m =>
    obtain rfl := Option.some.inj hst
    have hget : ∀ o p, (s.objs o).mBuffer = some p → (s.heap.alloc m).get p = s.heap.get p := by
      intro o p hp
      obtain ⟨x, hx⟩ := Option.isSome_iff_exists.mp (hs.live o p hp)
      exact Store.get_alloc_lt (Store.lt_next hx)
    refine ⟨⟨⟨fun o p hp => ?_, hs.separate, hs.fresh⟩, fun o _ => ⟨rfl, ?_⟩⟩, False.elim⟩
    · rw [hget o p hp]
      exact hs.live o p hp
    · unfold CameraMetadata.packet
      dsimp only
      cases hb : (s.objs o).mBuffer with
      | none => rfl
      | some p => exact hget o p hb
  | assignBuffer o buffer =>
    obtain ⟨ho, rfl⟩ := guarded hst
    refine (hs.method ho (fun hl => ?_) fun _ =>
      CameraMetadata.assign_method (hs.live o) buffer).imp_right fun h hout _ => h hout
    unfold CameraMetadata.assign
    rw [if_pos hl]
  | release o =>
    obtain ⟨ho, rfl⟩ := guarded hst
    exact (hs.release ho).imp_right fun h hout _ => h hout
  | clear o =>
    obtain ⟨ho, rfl⟩ := guarded hst
    refine (hs.method ho (fun hl => ?_) fun hl => ?_).imp_right fun h hout _ => h hout
    · unfold CameraMetadata.clear
      rw [if_pos hl]
    · exact CameraMetadata.Method.drop CameraMetadata.clear_others
        (congrArg CameraMetadata.mBuffer (CameraMetadata.clear_buffer hl))
  | acquire o buffer =>
    obtain ⟨ho, rfl⟩ := guarded hst
    refine (hs.acquire ho fun p hp => ?_).imp_right fun h hout _ => h hout
    subst hp
    refine ⟨ha.1, fun o' => ?_⟩
    by_cases hlt : o' < s.next
    · exact ha.2 o' hlt
    · rw [hs.fresh o' (Nat.not_lt.mp hlt)]
      exact fun h => nomatch h
  | acquireFrom o other =>
    obtain ⟨ho, rfl⟩ := guarded hst
    exact hs.acquiredFrom ho.1 ho.2
  | append o other =>
    simp only [Objects.call] at hst
    split_ifs at hst with ho
    exact (hs.appended ho.1 hst).imp_right fun h hout _ => h hout
  | appendBuffer o buffer =>
    simp only [Objects.call] at hst
    split_ifs at hst with ho
    exact (hs.appended ho hst).imp_right fun h hout _ => h hout
  | getAndLock o =>
    obtain ⟨ho, rfl⟩ := guarded hst
    exact ⟨hs.relock ho rfl, False.elim⟩
  | unlock o buffer =>
    obtain ⟨ho, rfl⟩ := guarded hst
    refine ⟨hs.relock ho ?_, False.elim⟩
    unfold CameraMetadata.unlock
    split_ifs <;> rfl

/-! ### Every run -/

/-- The lock discipline of one step: what is locked stays, and a call that a lock refuses leaves the
objects it is about. -/
structure Disciplined (s : Objects) (a : Call) (s' : Objects) : Prop where
  locked : ∀ o, (s.objs o).mLocked = true → Kept s s' o
  refused : LockedOut s a → ∀ o ∈ involved a, Kept s s' o

/-- A step is disciplined exactly when it does not meet the defect. -/
theorem Owned.disciplined_iff (hs : Owned s) {a : Call} (ha : Handed s a)
    (hst : Objects.call L ops s a = some s') : Disciplined s a s' ↔ Considers s a := by
  obtain ⟨hsafe, hsame⟩ := hs.call ha hst
  refine ⟨fun hd => ?_, fun hcons => ⟨hsafe.locked, fun hout o _ => ?_⟩⟩
  · cases a with
    | acquireFrom o other =>
      intro hlo
      by_contra hno
      rw [not_or] at hno
      -- the packet of `o` is given up and nothing takes its place
      have hkept := (hd.refused (Or.inr hlo) o List.mem_cons_self).buffer
      simp only [Objects.call] at hst
      split_ifs at hst
      obtain rfl := Option.some.inj hst
      refine hno.2 (hkept.symm.trans ?_)
      unfold Objects.acquiredFrom
      rw [if_neg hno.1]
      dsimp only
      rw [CameraMetadata.release_locked hlo, put_self]
      simp only [Objects.put, Function.update_self]
      unfold CameraMetadata.acquire
      rw [if_neg hno.1]
    | _ => trivial
  · rw [hsame hout hcons]
    exact Kept.refl s o

variable (L ops) in
/-- The runs in which the object `o` is locked before every step. -/
def WhileLocked (o : ℕ) : Objects → Objects → Prop :=
  Relation.ReflTransGen fun s s' =>
    (s.objs o).mLocked = true ∧ ∃ a, Handed s a ∧ Objects.call L ops s a = some s'

/-- **The lock discipline, in every run**: each step is disciplined exactly when it is not an
`acquire` from a locked object by one that has a packet to lose, and as long as an object is locked it
keeps its pointer and its packet. -/
theorem reach_disciplined (h : Reach (Objects.call L ops) Handed Owned s) :
    (∀ a s', Handed s a → Objects.call L ops s a = some s' → (Disciplined s a s' ↔ Considers s a)) ∧
      ∀ o s', WhileLocked L ops o s s' → Kept s s' o := by
  have hs : Owned s := h.invariant (fun _ h0 => h0) fun _ _ _ _ hI ha hst => (hI.call ha hst).1.owned
  refine ⟨fun a s' ha hst => hs.disciplined_iff ha hst, fun o s' hrun => ?_⟩
  have hboth : Owned s' ∧ Kept s s' o := by
    induction hrun with
    | refl => exact ⟨hs, Kept.refl s o⟩
    | tail _ hlast ih =>
      obtain ⟨hl, a, ha, hst⟩ := hlast
      obtain ⟨hsafe, -⟩ := ih.1.call ha hst
      exact ⟨hsafe.owned, ih.2.trans (hsafe.locked o hl)⟩
  exact hboth.2

end Steps

instance (s : Objects) : (a : Call) → Decidable (Handed s a)
  | .acquire _ (some _) => inferInstanceAs (Decidable (_ ∧ _))
  | .acquire _ none | .base _ | .allocate _ | .assignBuffer .. | .release _ | .clear _
  | .acquireFrom .. | .append .. | .appendBuffer .. | .getAndLock _ | .unlock .. => .isTrue trivial

theorem owned_start : Owned {} :=
  ⟨fun _ _ hp => (nomatch hp), fun _ _ _ _ hp => (nomatch hp), fun _ _ => rfl⟩

/-- Two objects with a packet each, of which the second is locked. -/
def secondLocked : List Call :=
  [.base .construct, .base .construct, .base (.update 0 controlAeMode .byte none [1] 1),
    .base (.update 1 controlAeMode .byte none [0] 1), .getAndLock 1]

/-- A swap with the locked object is refused. -/
theorem reach_disciplined_swap : ∃ s s' : Objects,
    Reach (Objects.call referenceLibc none) Handed Owned s ∧
      (s.objs 1).mLocked = true ∧
      Objects.call referenceLibc none s (.base (.swap 0 1)) = some s' ∧
      Disciplined s (.base (.swap 0 1)) s' := by
  obtain ⟨s, h, hv⟩ := Reach.of_exec (f := fun s : Objects => (s.next, (s.objs 1).mLocked))
    (v := (2, true)) owned_start (show (exec (Objects.call referenceLibc none) Handed {}
      secondLocked).map _ = _ by decide)
  obtain ⟨hn, hl⟩ := Prod.mk.inj hv
  have hst : Objects.call referenceLibc none s (.base (.swap 0 1)) = some _ :=
    if_pos (by rw [hn]; decide)
  exact ⟨s, _, h, hl, hst, ((reach_disciplined h).1 (.base (.swap 0 1)) _ trivial hst).mpr trivial⟩

/-- `acquire` from the locked object: the first one is left without its packet. -/
theorem reach_not_disciplined : ∃ s s' : Objects,
    Reach (Objects.call referenceLibc none) Handed Owned s ∧
      Objects.call referenceLibc none s (.acquireFrom 0 1) = some s' ∧
      LockedOut s (.acquireFrom 0 1) ∧ (s.objs 0).mBuffer = some 0 ∧ (s'.objs 0).mBuffer = none ∧
      ¬ Disciplined s (.acquireFrom 0 1) s' := by
  obtain ⟨s, h, hv⟩ := Reach.of_exec
    (f := fun s : Objects => ((s.objs 1).mLocked, (s.objs 0).mBuffer,
      (Objects.call referenceLibc none s (.acquireFrom 0 1)).map fun s' => (s'.objs 0).mBuffer))
    (v := (true, some 0, some none)) owned_start
    (show (exec (Objects.call referenceLibc none) Handed {} secondLocked).map _ = _ by decide)
  obtain ⟨hl, hv'⟩ := Prod.mk.inj hv
  obtain ⟨hb, hs'⟩ := Prod.mk.inj hv'
  obtain ⟨s', hst, hnone⟩ := Option.map_eq_some_iff.mp hs'
  have hout : LockedOut s (.acquireFrom 0 1) := Or.inr hl
  refine ⟨s, s', h, hst, hout, hb, hnone, fun hd => ?_⟩
  have hkept := (hd.refused hout 0 List.mem_cons_self).buffer
  rw [hb, hnone] at hkept
  cases hkept

end Objects

end IntelCamera
