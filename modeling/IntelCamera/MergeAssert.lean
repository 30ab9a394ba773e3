import IntelCamera.CameraAssert
import IntelCamera.Merge
import Mathlib.Algebra.Order.BigOperators.Group.List

/-!
# MergeAssert — `Parameters::merge` in a build with assertions

An entry of no values meets the data word of the record that `p` has under its tag.  If the values of that
record are its four bytes, the word is these bytes.  If they lie in the data area, it is their offset, and
the rounds before may have taken out data below: `offsetAfter` is the offset that is left, the sizes of the
payloads below that were not replaced by payloads of another size.  `Followed` is the invariant that carries
this through the rounds, from the records `p` had at first.

`merge_union_iff`: a merge that meets no word other than zero (`StaleWord`) returns and is a right-biased
union, and one that meets such a word ends the process.
-/

namespace IntelCamera

open Lib

namespace Asserting

/-- One round of the loop of `Parameters::merge`. -/
def mergeEntry (L : Libc) (ops : Option VendorTagOps) (buffer : ℕ) (src : Metadata)
    (s : Heap × CameraMetadata) (i : ℕ) : Option (Heap × CameraMetadata) :=
  match getCameraMetadataEntry src i with
  | none => some s
  | some entry =>
    match MetaType.ofCode entry.type with
    | none => some s
    | some type =>
      (update L ops s.1 s.2 entry.tag type (some buffer) entry.data entry.count).map (·.2)

/-- `Parameters::merge`. -/
def merge (L : Libc) (ops : Option VendorTagOps) (h : Heap) (p : Parameters)
    (metadata : Option CameraMetadata) : Option (Heap × Parameters × Option CameraMetadata) :=
  match metadata with
  | none => some (h, p, none)
  | some c =>
    if c.isEmpty h then some (h, p, some c) else
    let locked := c.getAndLock
    match c.mBuffer, c.packet h with
    | some buffer, some src =>
      ((List.range (c.entryCount h)).foldlM (mergeEntry L ops buffer src) (h, p.mMetadata)).map
        fun merged => (merged.1, { p with mMetadata := merged.2 }, some (locked.unlock c.mBuffer).2)
    | _, _ => some (h, p, some (locked.unlock c.mBuffer).2)

/-! ### The data word an entry meets -/

/-- The payload of `g` was replaced by one of another size. -/
def Resized (done : List BufferEntry) (g : BufferEntry) : Prop :=
  ∃ e ∈ done, e.tag = g.tag ∧ e.dataSize ≠ g.dataSize

instance (done : List BufferEntry) (g : BufferEntry) : Decidable (Resized done g) :=
  inferInstanceAs (Decidable (∃ e ∈ done, _))

/-- The sizes of the payloads that lie below that of `f` and are still there. -/
def below (records done : List BufferEntry) (f : BufferEntry) : ℕ :=
  (records.map fun g => if g.offset < f.offset ∧ ¬ Resized done g then g.dataSize else 0).sum

/-- The data word of `f`, one of `records`, when the entries `done` have been stored over them. -/
def offsetAfter (records done : List BufferEntry) (f : BufferEntry) : ℕ :=
  if f.dataSize = 0 then f.offset else below records done f

/-- An entry of no values meets a word that is not zero. -/
def StaleWord (records source : List BufferEntry) : Prop :=
  ∃ i e f, source[i]? = some e ∧ e.count = 0 ∧ f ∈ records ∧ f.tag = e.tag ∧
    offsetAfter records (source.take i) f ≠ 0

section Words

variable {P done : List BufferEntry} {e f g : BufferEntry}

theorem resized_snoc : Resized (done ++ [e]) g ↔
    Resized done g ∨ (e.tag = g.tag ∧ e.dataSize ≠ g.dataSize) := by
  unfold Resized
  simp [or_and_right, exists_or]

theorem not_resized_of_new (h : g.tag ∉ done.map (·.tag)) : ¬ Resized done g := by
  rintro ⟨e, he, ht, -⟩
  exact h (List.mem_map.mpr ⟨e, he, ht⟩)

/-- A payload that is replaced in place, or that was none, moves nothing. -/
theorem below_snoc_of_kept (h : ∀ g ∈ P, g.tag = e.tag → g.dataSize = e.dataSize ∨ g.dataSize = 0)
    (f : BufferEntry) : below P (done ++ [e]) f = below P done f := by
  unfold below
  congr 1
  refine List.map_congr_left fun g hg => ?_
  by_cases ht : g.tag = e.tag
  · rcases h g hg ht with hs | hs
    · simp [resized_snoc, hs]
    · simp [hs]
  · simp [resized_snoc, Ne.symm ht]

/-- A payload taken out is missing below what lies above it. -/
theorem below_snoc_of_moved (hn : (P.map (·.tag)).Nodup) (hg : g ∈ P) (ht : g.tag = e.tag)
    (hnew : e.tag ∉ done.map (·.tag)) (hs : e.dataSize ≠ g.dataSize) (f : BufferEntry) :
    below P (done ++ [e]) f + (if g.offset < f.offset then g.dataSize else 0) = below P done f := by
  obtain ⟨A, B, rfl⟩ := List.append_of_mem hg
  rw [List.map_append, List.map_cons, List.nodup_middle, List.nodup_cons, ← List.map_append] at hn
  have hother : ∀ x ∈ A ++ B, (if x.offset < f.offset ∧ ¬ Resized (done ++ [e]) x then x.dataSize else 0) =
      if x.offset < f.offset ∧ ¬ Resized done x then x.dataSize else 0 := by
    intro x hx
    have hxt : ¬ e.tag = x.tag := by
      intro he
      refine hn.1 ?_
      rw [ht, he]
      exact List.mem_map_of_mem hx
    simp [resized_snoc, hxt]
  have hA := List.map_congr_left fun x hx => hother x (List.mem_append_left B hx)
  have hB := List.map_congr_left fun x hx => hother x (List.mem_append_right A hx)
  have hg0 : ¬ Resized done g := not_resized_of_new (by rwa [ht])
  have hg1 : Resized (done ++ [e]) g := resized_snoc.mpr (Or.inr ⟨ht.symm, hs⟩)
  unfold below
  simp only [List.map_append, List.map_cons, List.sum_append, List.sum_cons, hA, hB, hg0, hg1,
    not_true, not_false_eq_true, and_false, and_true, if_false]
  omega

theorem below_mono (P done : List BufferEntry) (h : f.offset ≤ g.offset) :
    below P done f ≤ below P done g := by
  unfold below
  refine List.sum_le_sum fun x _ => ?_
  by_cases hx : x.offset < f.offset ∧ ¬ Resized done x
  · rw [if_pos hx, if_pos ⟨lt_of_lt_of_le hx.1 h, hx.2⟩]
  · rw [if_neg hx]
    exact Nat.zero_le _

/-- **The payloads stay in their order.** -/
theorem below_lt_iff (hn : (P.map (·.tag)).Nodup) (hg : g ∈ P) (hnew : g.tag ∉ done.map (·.tag))
    (hs : 0 < g.dataSize) (f : BufferEntry) : below P done g < below P done f ↔ g.offset < f.offset := by
  constructor
  · intro h
    by_contra hle
    have := below_mono P done (Nat.le_of_not_lt hle)
    omega
  · intro h
    -- without `g` itself there is as much below `f` as below `g`
    let e : BufferEntry := { g with count := 0 }
    have he : e.dataSize = 0 := dataSize_of_count_zero rfl
    have hne : e.dataSize ≠ g.dataSize := by omega
    have hf := below_snoc_of_moved (e := e) hn hg rfl hnew hne f
    have hgg := below_snoc_of_moved (e := e) hn hg rfl hnew hne g
    have hmono := below_mono P (done ++ [e]) h.le
    rw [if_pos h] at hf
    rw [if_neg (Nat.lt_irrefl _)] at hgg
    omega

/-- **At first the offset is what lies below.** -/
theorem offsetAfter_nil {n : ℕ} (h : Tiles (regions P) n) (hf : f ∈ P) : offsetAfter P [] f = f.offset := by
  unfold offsetAfter
  by_cases hs : f.dataSize = 0
  · rw [if_pos hs]
  · rw [if_neg hs]
    have hsum := h.sum_below (mem_regions hf (Nat.pos_of_ne_zero hs))
    rw [sum_map_regions] at hsum
    refine Eq.trans ?_ hsum
    unfold below
    congr 1
    refine List.map_congr_left fun g _ => ?_
    have hr : ¬ Resized [] g := not_resized_of_new (by simp)
    by_cases hg : 0 < g.dataSize
    · simp [hr, hg]
    · simp [Nat.eq_zero_of_not_pos hg]

theorem staleWord_snoc : StaleWord P (done ++ [e]) ↔
    StaleWord P done ∨ (e.count = 0 ∧ ∃ f ∈ P, f.tag = e.tag ∧ offsetAfter P done f ≠ 0) := by
  constructor
  · rintro ⟨i, x, f, hi, h0, hf, ht, hw⟩
    rcases Nat.lt_or_ge i done.length with hlt | hge
    · rw [List.getElem?_append_left hlt] at hi
      rw [List.take_append_of_le_length hlt.le] at hw
      exact Or.inl ⟨i, x, f, hi, h0, hf, ht, hw⟩
    · rw [List.getElem?_append_right hge, List.getElem?_singleton] at hi
      split_ifs at hi with hi0
      obtain rfl := Option.some.inj hi
      rw [show i = done.length by omega, List.take_left] at hw
      exact Or.inr ⟨h0, f, hf, ht, hw⟩
  · rintro (⟨i, x, f, hi, h0, hf, ht, hw⟩ | ⟨h0, f, hf, ht, hw⟩)
    · have hlt := (List.getElem?_eq_some_iff.mp hi).1
      refine ⟨i, x, f, ?_, h0, hf, ht, ?_⟩
      · rw [List.getElem?_append_left hlt]
        exact hi
      · rw [List.take_append_of_le_length hlt.le]
        exact hw
    · refine ⟨done.length, e, f, ?_, h0, hf, ht, ?_⟩
      · rw [List.getElem?_append_right le_rfl, Nat.sub_self]
        rfl
      · rw [List.take_left]
        exact hw

end Words

/-! ### The invariant of the rounds -/

/-- `now` are the records after the entries `done` were stored over `records`: those not written to have
the offsets of `offsetAfter`. -/
structure Followed (records done now : List BufferEntry) : Prop where
  kept : ∀ f ∈ records, ∃ f' ∈ now, f'.tag = f.tag
  traced : ∀ f' ∈ now, f'.tag ∉ done.map (·.tag) → ∃ f ∈ records,
    f'.tag = f.tag ∧ f'.dataSize = f.dataSize ∧ f'.offset = offsetAfter records done f

namespace Followed

variable {P done now now' : List BufferEntry} {e : BufferEntry}

theorem start {n : ℕ} (h : Tiles (regions P) n) : Followed P [] P :=
  ⟨fun f hf => ⟨f, hf, rfl⟩, fun f hf _ => ⟨f, hf, rfl, rfl, (offsetAfter_nil h hf).symm⟩⟩

/-- A payload that is taken out moves the one of `f` down exactly if it lies below. -/
theorem moved (hn : (P.map (·.tag)).Nodup) (hnew : e.tag ∉ done.map (·.tag)) {f f' g g' : BufferEntry}
    (hg : g ∈ P) (ht : g'.tag = g.tag) (hgs : g'.dataSize = g.dataSize)
    (hgo : g'.offset = offsetAfter P done g) (hge : g'.tag = e.tag)
    (hs : e.dataSize ≠ g'.dataSize ∧ g'.dataSize ≠ 0) (hlt : 0 < f'.dataSize → f'.offset < 2 ^ 32)
    (hfs : f'.dataSize = f.dataSize) (hfo : f'.offset = offsetAfter P done f) :
    (shiftOffset g'.offset g'.dataSize f').offset = offsetAfter P (done ++ [e]) f := by
  have hg0 : g.dataSize ≠ 0 := by omega
  unfold offsetAfter at hgo hfo ⊢
  rw [if_neg hg0] at hgo
  by_cases hf0 : f.dataSize = 0
  · rw [if_pos hf0] at hfo ⊢
    unfold shiftOffset
    rw [if_neg (by omega)]
    exact hfo
  · rw [if_neg hf0] at hfo ⊢
    have hsum := below_snoc_of_moved hn hg (ht.symm.trans hge) hnew (by omega) f
    have hord := below_lt_iff hn hg (by rwa [← ht, hge]) (Nat.pos_of_ne_zero hg0) f
    have hword := hlt (by omega)
    unfold shiftOffset
    by_cases hbelow : g.offset < f.offset
    · rw [if_pos hbelow] at hsum
      rw [if_pos ⟨by omega, by rw [hgo, hfo]; exact hord.mpr hbelow⟩, offset_mk (by omega), hfo, hgs]
      omega
    · rw [if_neg hbelow] at hsum
      rw [if_neg (fun hc => hbelow (hord.mp (by rw [← hgo, ← hfo]; exact hc.2)))]
      omega

/-- **One round.** -/
theorem step (h : Followed P done now) (hn : (P.map (·.tag)).Nodup) (hnew : e.tag ∉ done.map (·.tag))
    (hlt : ∀ f ∈ now, 0 < f.dataSize → f.offset < 2 ^ 32) (hrw : Rewritten now e.tag e.dataSize now') :
    Followed P (done ++ [e]) now' := by
  refine ⟨fun f hf => ?_, fun f' hf' hnot => ?_⟩
  · obtain ⟨f₁, h1, ht1⟩ := h.kept f hf
    obtain ⟨f₂, h2, ht2⟩ := hrw.kept f₁ h1
    exact ⟨f₂, h2, ht2.trans ht1⟩
  · rw [List.map_append, List.mem_append, not_or] at hnot
    have hne : f'.tag ≠ e.tag := fun he => hnot.2 (List.mem_map.mpr ⟨e, List.mem_singleton_self e, he.symm⟩)
    have hsame : ∀ f, (∀ g ∈ P, g.tag = e.tag → g.dataSize = e.dataSize ∨ g.dataSize = 0) →
        offsetAfter P (done ++ [e]) f = offsetAfter P done f := by
      intro f hk
      unfold offsetAfter
      rw [below_snoc_of_kept hk]
    by_cases hin : e.tag ∈ now.map (·.tag)
    · obtain ⟨g', hg', hge⟩ := List.mem_map.mp hin
      obtain ⟨g, hg, ht, hgs, hgo⟩ := h.traced g' hg' (by rwa [hge])
      obtain ⟨f₁, hf₁, rfl⟩ := hrw.updated g' hg' hge f' hf' hne
      by_cases hs : e.dataSize ≠ g'.dataSize ∧ g'.dataSize ≠ 0
      · rw [if_pos hs] at hnot ⊢
        rw [shiftOffset_tag] at hnot ⊢
        rw [shiftOffset_dataSize]
        obtain ⟨f, hf, hft, hfs, hfo⟩ := h.traced f₁ hf₁ hnot.1
        exact ⟨f, hf, hft, hfs, moved hn hnew hg ht hgs hgo hge hs (hlt f₁ hf₁) hfs hfo⟩
      · rw [if_neg hs] at hnot ⊢
        obtain ⟨f, hf, hft, hfs, hfo⟩ := h.traced f₁ hf₁ hnot.1
        refine ⟨f, hf, hft, hfs, hfo.trans (hsame f fun x hx hxt => ?_).symm⟩
        obtain rfl : x = g := List.inj_on_of_nodup_map hn hx hg (hxt.trans (hge.symm.trans ht))
        omega
    · obtain ⟨f, hf, hft, hfs, hfo⟩ := h.traced f' (hrw.added hin f' hf' hne) hnot.1
      refine ⟨f, hf, hft, hfs, hfo.trans (hsame f fun x hx hxt => ?_).symm⟩
      obtain ⟨x', hx', hxt'⟩ := h.kept x hx
      exact absurd (List.mem_map.mpr ⟨x', hx', hxt'.trans hxt⟩) hin

/-- The word the next entry meets. -/
theorem clearWord_iff (h : Followed P done now) (hn : (P.map (·.tag)).Nodup)
    (hnew : e.tag ∉ done.map (·.tag)) : ClearWord now e.tag e.count ↔
      ¬ (e.count = 0 ∧ ∃ f ∈ P, f.tag = e.tag ∧ offsetAfter P done f ≠ 0) := by
  constructor
  · rintro hclear ⟨h0, f, hf, ht, hw⟩
    obtain ⟨f', hf', ht'⟩ := h.kept f hf
    obtain ⟨g, hg, hgt, -, hgo⟩ := h.traced f' hf' (by rwa [ht', ht])
    obtain rfl : g = f := List.inj_on_of_nodup_map hn hg hf (hgt.symm.trans ht')
    rw [← hgo] at hw
    exact hw (hclear h0 f' hf' (ht'.trans ht))
  · intro hno h0 f' hf' ht
    obtain ⟨f, hf, hft, -, hfo⟩ := h.traced f' hf' (by rwa [ht])
    by_contra hw
    exact hno ⟨h0, f, hf, hft.symm.trans ht, by rwa [← hfo]⟩

end Followed

/-! ### The rounds -/

section Rounds

variable {L : Libc} {ops : Option VendorTagOps} {h : Heap} {c : CameraMetadata} {src : Metadata}
  {buffer : ℕ}

/-- The records of a map: no tag twice, and payloads that tile what is in use. -/
theorem records_layout (hc : c.Holds (IsZeroedMap ops) h) : ((c.records h).map (·.tag)).Nodup ∧
    (∃ n, Tiles (regions (c.records h)) n) ∧
    ∀ f ∈ c.records h, 0 < f.dataSize → f.offset < 2 ^ 32 := by
  unfold CameraMetadata.records
  cases hpk : c.packet h with
  | none => exact ⟨List.nodup_nil, ⟨0, Tiles.nil⟩, by simp⟩
  | some m =>
    obtain ⟨q, hb, hq⟩ := Option.bind_eq_some_iff.mp hpk
    have hm := (hc.of_get hb hq).1
    refine ⟨?_, ⟨_, hm.sound.wf.tiles⟩, fun f hf hs => ?_⟩
    · rw [Option.map_some, Option.getD_some, ← abs_tags]
      exact hm.nodup
    · have hle := hm.sound.wf.region_le hf hs
      have hcap := hm.sound.wf.dataCapacity_lt
      have hdc := hm.sound.wf.dataCount_le
      omega

section

variable (hmalloc : ∀ n, (L.malloc n).isSome) (hsrc : IsTyped ops (2 ^ 32) src)

include hmalloc hsrc

/-- **One round** does what it does without assertions, unless its word is not zero. -/
theorem mergeEntry_spec {i : ℕ} {e : BufferEntry} (hi : src.entries[i]? = some e)
    {s : Heap × CameraMetadata} (hs : s.2.Holds (IsZeroedMap ops) s.1) (hb : s.2.mBuffer ≠ some buffer)
    {entries bytes : ℕ} (hr : Parameters.RoomFor (entries + 1) (e.dataSize + bytes) s) :
    (ClearWord (s.2.records s.1) e.tag e.count →
      mergeEntry L ops buffer src s i = some (Parameters.mergeEntry L ops buffer src s i) ∧
      (Parameters.mergeEntry L ops buffer src s i).2.Holds (IsZeroedMap ops)
        (Parameters.mergeEntry L ops buffer src s i).1 ∧
      Rewritten (s.2.records s.1) e.tag e.dataSize
        ((Parameters.mergeEntry L ops buffer src s i).2.records
          (Parameters.mergeEntry L ops buffer src s i).1)) ∧
    (¬ ClearWord (s.2.records s.1) e.tag e.count → mergeEntry L ops buffer src s i = none) := by
  obtain ⟨t, ht, hget, hlen, hsize, -⟩ := Parameters.source_entry hsrc hi
  have hround : mergeEntry L ops buffer src s i =
      (update L ops s.1 s.2 e.tag t (some buffer) (src.payload e) e.count).map (·.2) := by
    unfold mergeEntry
    rw [hget]
    dsimp only
    rw [Parameters.ofCode_code]
  have hbase : Parameters.mergeEntry L ops buffer src s i =
      (s.2.update L ops s.1 e.tag t (some buffer) (src.payload e) e.count).2 := by
    unfold Parameters.mergeEntry
    rw [hget]
    dsimp only
    rw [Parameters.ofCode_code]
  obtain ⟨hpass, hfail⟩ := update_spec hmalloc hs ht hlen.ge (fun hin => hb hin.2.symm)
    (by rw [hsize]; exact hr.request)
  rw [hsize] at hpass
  refine ⟨fun hclear => ?_, fun hclear => ?_⟩
  · obtain ⟨h', c', hu, hua, hz, hrw⟩ := hpass hclear
    rw [hround, hbase, hua, hu]
    exact ⟨rfl, hz, hrw⟩
  · rw [hround, hfail hclear]
    rfl

/-- **`k` rounds** return unless an entry met a word that is not zero. -/
theorem merge_fold (hn : (src.abs.map (·.tag)).Nodup) {m : Metadata} (hlive : h.get buffer = some m)
    (hc : c.Holds (IsZeroedMap ops) h) (hb : c.mBuffer ≠ some buffer)
    (hr : Parameters.RoomFor src.entryCount src.dataCount (h, c)) {k : ℕ} (hk : k ≤ src.entryCount) :
    (¬ StaleWord (c.records h) (src.entries.take k) →
      (List.range k).foldlM (mergeEntry L ops buffer src) (h, c) =
          some ((List.range k).foldl (Parameters.mergeEntry L ops buffer src) (h, c)) ∧
        ((List.range k).foldl (Parameters.mergeEntry L ops buffer src) (h, c)).2.Holds (IsZeroedMap ops)
          ((List.range k).foldl (Parameters.mergeEntry L ops buffer src) (h, c)).1 ∧
        Followed (c.records h) (src.entries.take k)
          (((List.range k).foldl (Parameters.mergeEntry L ops buffer src) (h, c)).2.records
            ((List.range k).foldl (Parameters.mergeEntry L ops buffer src) (h, c)).1)) ∧
    (StaleWord (c.records h) (src.entries.take k) →
      (List.range k).foldlM (mergeEntry L ops buffer src) (h, c) = none) := by
  obtain ⟨hnodup, ⟨n, htiles⟩, -⟩ := records_layout hc
  induction k with
  | zero =>
    refine ⟨fun _ => ⟨rfl, hc, Followed.start htiles⟩, ?_⟩
    rintro ⟨i, e, f, hi, -⟩
    cases hi
  | succ k ih =>
    obtain ⟨hgo, hstop⟩ := ih (by omega)
    have hlt : k < src.entries.length := hk
    have hlaid := Parameters.merge_fold hmalloc hsrc hn hlive (hc.mono fun _ hm => hm.1) hb hr
      (show k ≤ src.entryCount by omega)
    obtain ⟨hb', hr'⟩ := hlaid.ready hlive hb hlt
    have htake : src.entries.take (k + 1) = src.entries.take k ++ [src.entries[k]] :=
      (List.take_append_getElem hlt).symm
    have hnew : src.entries[k].tag ∉ (src.entries.take k).map (·.tag) := by
      rw [abs_tags] at hn
      have hsub := hn.sublist ((List.take_sublist (k + 1) src.entries).map (·.tag))
      rw [htake, List.map_append, List.map_singleton] at hsub
      exact fun hin => (List.nodup_append.mp hsub).2.2 _ hin _ List.mem_cons_self rfl
    rw [htake, staleWord_snoc, List.range_succ, List.foldlM_append, List.foldl_append, List.foldl_cons,
      List.foldl_nil]
    generalize (List.range k).foldl (Parameters.mergeEntry L ops buffer src) (h, c) = s at *
    by_cases hstale : StaleWord (c.records h) (src.entries.take k)
    · rw [hstop hstale]
      exact ⟨fun hno => absurd (Or.inl hstale) hno, fun _ => rfl⟩
    · obtain ⟨hfold, hz, hfol⟩ := hgo hstale
      obtain ⟨hpass, hfail⟩ := mergeEntry_spec hmalloc hsrc (List.getElem?_eq_getElem hlt) hz hb' hr'
      have hword := hfol.clearWord_iff hnodup hnew
      rw [hfold]
      refine ⟨fun hno => ?_, fun hst => ?_⟩
      · obtain ⟨hm, hz', hrw⟩ := hpass (hword.mpr fun hc => hno (Or.inr hc))
        refine ⟨?_, hz', hfol.step hnodup hnew (records_layout hz).2.2 hrw⟩
        simp only [Option.bind_eq_bind, Option.bind_some, List.foldlM_cons, List.foldlM_nil, hm]
        rfl
      · have hm := hfail fun hclear => hword.mp hclear (hst.resolve_left hstale)
        simp only [Option.bind_eq_bind, Option.bind_some, List.foldlM_cons, hm, Option.bind_none]

end

end Rounds

/-! ### The whole merge -/

section Whole

variable {L : Libc} {ops : Option VendorTagOps} {h : Heap} {p : Parameters} {c : CameraMetadata}

theorem merge_empty (L : Libc) (ops : Option VendorTagOps) (p : Parameters) (he : c.isEmpty h = true) :
    merge L ops h p (some c) = some (h, p, some c) := by
  unfold merge
  dsimp only
  rw [if_pos he]

theorem not_staleWord_nil (records : List BufferEntry) : ¬ StaleWord records [] := by
  rintro ⟨i, e, f, hi, -⟩
  cases hi

/-- **A merge in a build with assertions** returns what it returns without them, or ends the process. -/
theorem merge_spec (hmalloc : ∀ n, (L.malloc n).isSome) (hp : p.mMetadata.Holds (IsZeroedMap ops) h)
    (hs : Parameters.MergeSource ops h p c)
    (hr : Parameters.RoomFor (c.entryCount h) (c.dataCount h) (h, p.mMetadata)) :
    (¬ StaleWord (p.mMetadata.records h) (c.records h) →
      merge L ops h p (some c) = some (Parameters.merge L ops h p (some c)) ∧
      (Parameters.merge L ops h p (some c)).2.1.mMetadata.Holds (IsZeroedMap ops)
        (Parameters.merge L ops h p (some c)).1) ∧
    (StaleWord (p.mMetadata.records h) (c.records h) → merge L ops h p (some c) = none) := by
  by_cases he : c.isEmpty h = true
  · have hnil : c.records h = [] := by
      have h0 : c.entryCount h = 0 := by simpa [CameraMetadata.isEmpty] using he
      unfold CameraMetadata.entryCount at h0
      unfold CameraMetadata.records
      cases hpk : c.packet h with
      | none => rfl
      | some m =>
        rw [hpk] at h0
        exact List.length_eq_zero_iff.mp h0
    rw [merge_empty L ops p he, Parameters.merge_empty L ops p he, hnil]
    exact ⟨fun _ => ⟨rfl, hp⟩, fun hst => absurd hst (not_staleWord_nil _)⟩
  · cases hb : c.mBuffer with
    | none =>
      refine absurd ?_ he
      unfold CameraMetadata.isEmpty CameraMetadata.entryCount
      rw [CameraMetadata.packet_none hb]
      rfl
    | some buffer =>
      obtain ⟨src, hget, hsrc⟩ := hs.holds.packet buffer hb
      have hpk := CameraMetadata.packet_of_get hb hget
      have hec : c.entryCount h = src.entryCount := by
        unfold CameraMetadata.entryCount
        rw [hpk]
      have hdc : c.dataCount h = src.dataCount := by
        unfold CameraMetadata.dataCount
        rw [hpk]
        rfl
      rw [hec, hdc] at hr
      have htake : src.entries.take src.entryCount = src.entries := List.take_length
      obtain ⟨hpass, hfail⟩ := merge_fold hmalloc hsrc (hs.unique src hpk) hget hp (hs.other buffer hb) hr
        le_rfl
      rw [htake] at hpass hfail
      rw [CameraMetadata.records_of_packet hpk]
      have hmerge : merge L ops h p (some c) =
          ((List.range src.entryCount).foldlM (mergeEntry L ops buffer src) (h, p.mMetadata)).map
            fun merged => (merged.1, { p with mMetadata := merged.2 }, some c) := by
        unfold merge
        dsimp only
        rw [if_neg he, hpk, hb, hec]
        dsimp only
        rw [← hb, Parameters.unlock_getAndLock hs.holds.unlocked]
      have hbase : Parameters.merge L ops h p (some c) =
          (((List.range src.entryCount).foldl (Parameters.mergeEntry L ops buffer src) (h, p.mMetadata)).1,
            { p with mMetadata := ((List.range src.entryCount).foldl
              (Parameters.mergeEntry L ops buffer src) (h, p.mMetadata)).2 }, some c) :=
        Parameters.merge_eq (L := L) ops p he hs.holds.unlocked hb hpk
      rw [hmerge, hbase]
      refine ⟨fun hno => ?_, fun hst => ?_⟩
      · obtain ⟨hfold, hz, -⟩ := hpass hno
        rw [hfold]
        exact ⟨rfl, hz⟩
      · rw [hfail hst]
        rfl

/-- **The second merge of an object meets no word**: what the first one wrote has no values either. -/
theorem not_staleWord_again {r : Heap × Parameters × Option CameraMetadata}
    (hs : Parameters.MergeSource ops h p c) (hm : Parameters.Merged ops h p c r)
    (hz : r.2.1.mMetadata.Holds (IsZeroedMap ops) r.1) :
    ¬ StaleWord (r.2.1.mMetadata.records r.1) (c.records r.1) := by
  rintro ⟨i, e, f, hi, h0, hf, ht, hw⟩
  unfold CameraMetadata.records at hi hf
  rw [hm.packet_other hs] at hi
  cases hpk : c.packet h with
  | none =>
    rw [hpk] at hi
    cases hi
  | some src =>
    cases hpr : r.2.1.mMetadata.packet r.1 with
    | none =>
      rw [hpr] at hf
      cases hf
    | some m =>
      obtain ⟨b, hb, hget⟩ := Option.bind_eq_some_iff.mp hpk
      obtain ⟨q, hq, hgq⟩ := Option.bind_eq_some_iff.mp hpr
      have hsrc := hs.holds.of_get hb hget
      obtain ⟨hmap, hzero⟩ := hz.of_get hq hgq
      rw [hpk] at hi
      rw [hpr] at hf
      have he : e ∈ src.entries := List.mem_of_getElem? hi
      have hfm : f ∈ m.entries := hf
      have hve : src.values e.tag = some (src.absEntry e) :=
        (lookup_eq_some_iff (hs.unique src hpk)).mpr ⟨List.mem_map_of_mem he, rfl⟩
      have hvf : m.values e.tag = some (m.absEntry f) :=
        (lookup_eq_some_iff hmap.nodup).mpr ⟨List.mem_map_of_mem hfm, ht⟩
      have hval := congrFun hm.values e.tag
      unfold Parameters.overlay at hval
      rw [CameraMetadata.values_of_packet hpk, CameraMetadata.values_of_packet hpr, hve, hvf,
        Option.some_or] at hval
      have hlen := congrArg (fun x => x.payload.length) (Option.some.inj hval)
      have hlf := hmap.sound.wf.length_payload hfm
      have hle := hsrc.sound.wf.length_payload he
      have hpos := cameraMetadataTypeSize_pos (hmap.sound.wf.entry f hfm).type_lt
      have hf0 : f.count = 0 := by
        have hprod : f.count * cameraMetadataTypeSize f.type = 0 := by
          rw [← hlf, show (m.payload f).length = (src.payload e).length from hlen, hle, h0, Nat.zero_mul]
        exact (Nat.mul_eq_zero.mp hprod).resolve_right (Nat.ne_of_gt hpos)
      unfold offsetAfter at hw
      rw [if_pos (dataSize_of_count_zero hf0)] at hw
      exact hw (hzero f hfm hf0)

/-- What is known of a merge that returned. -/
theorem merge_some (hmalloc : ∀ n, (L.malloc n).isSome) (hp : p.mMetadata.Holds (IsZeroedMap ops) h)
    (hs : Parameters.MergeSource ops h p c)
    (hr : Parameters.RoomFor (c.entryCount h) (c.dataCount h) (h, p.mMetadata))
    {r : Heap × Parameters × Option CameraMetadata} (e : merge L ops h p (some c) = some r) :
    ¬ StaleWord (p.mMetadata.records h) (c.records h) ∧ Parameters.Merged ops h p c r ∧
      r.2.1.mMetadata.Holds (IsZeroedMap ops) r.1 := by
  obtain ⟨hpass, hfail⟩ := merge_spec hmalloc hp hs hr
  by_cases hst : StaleWord (p.mMetadata.records h) (c.records h)
  · rw [hfail hst] at e
    cases e
  · obtain ⟨hm, hz⟩ := hpass hst
    rw [hm] at e
    obtain rfl := Option.some.inj e
    exact ⟨hst, Parameters.merge_spec hmalloc (hp.mono fun _ hm => hm.1) hs hr, hz⟩

/-- A merge returns exactly if it meets no word. -/
theorem merge_isSome_iff (hmalloc : ∀ n, (L.malloc n).isSome)
    (hp : p.mMetadata.Holds (IsZeroedMap ops) h) (hs : Parameters.MergeSource ops h p c)
    (hr : Parameters.RoomFor (c.entryCount h) (c.dataCount h) (h, p.mMetadata)) :
    (∃ r, merge L ops h p (some c) = some r) ↔ ¬ StaleWord (p.mMetadata.records h) (c.records h) :=
  ⟨fun ⟨_, e⟩ => (merge_some hmalloc hp hs hr e).1,
    fun hst => ⟨_, ((merge_spec hmalloc hp hs hr).1 hst).1⟩⟩

/-- The values found after a second merge. -/
theorem found_merge_merge (hmalloc : ∀ n, (L.malloc n).isSome) {a b : CameraMetadata}
    {r₁ r₂ : Heap × Parameters × Option CameraMetadata} (hb : Parameters.MergeSource ops h p b)
    (h₁ : Parameters.Merged ops h p a r₁) (hz : r₁.2.1.mMetadata.Holds (IsZeroedMap ops) r₁.1)
    (hr : Parameters.RoomFor (b.entryCount r₁.1) (b.dataCount r₁.1) (r₁.1, r₁.2.1.mMetadata))
    (e : merge L ops r₁.1 r₁.2.1 (some b) = some r₂) : Parameters.found L r₂.1 r₂.2.1 =
      Parameters.overlay (b.values h) (Parameters.overlay (a.values h) (p.mMetadata.values h)) := by
  obtain ⟨-, h₂, -⟩ := merge_some hmalloc hz (h₁.mergeSource hb) hr e
  rw [h₂.found_eq, h₁.values_other hb, h₁.values]

end Whole

/-- **`merge` as a right-biased union**, unless an entry of no values meets a data word that is not zero:
the values found afterwards and the object merged, the merge of nothing, of the same object twice, and of
two objects one after the other. -/
theorem merge_union_iff (L : Libc) (ops : Option VendorTagOps) (hmalloc : ∀ n, (L.malloc n).isSome)
    (h : Heap) (p : Parameters) (hp : p.mMetadata.Holds (IsZeroedMap ops) h) :
    (∀ m, Parameters.MergeSource ops h p m →
      Parameters.RoomFor (m.entryCount h) (m.dataCount h) (h, p.mMetadata) →
      ((∃ r, merge L ops h p (some m) = some r ∧
          (∀ tag, Parameters.found L r.1 r.2.1 tag = (m.values h tag).or (Parameters.found L h p tag)) ∧
          r.2.2 = some m ∧ m.packet r.1 = m.packet h) ↔
        ¬ StaleWord (p.mMetadata.records h) (m.records h))) ∧
    merge L ops h p none = some (h, p, none) ∧
    (∀ m : CameraMetadata, m.isEmpty h = true → merge L ops h p (some m) = some (h, p, some m)) ∧
    (∀ m r₁, Parameters.MergeSource ops h p m →
      Parameters.RoomFor (m.entryCount h) (m.dataCount h) (h, p.mMetadata) →
      merge L ops h p (some m) = some r₁ →
      Parameters.RoomFor (m.entryCount r₁.1) (m.dataCount r₁.1) (r₁.1, r₁.2.1.mMetadata) →
      ∃ r₂, merge L ops r₁.1 r₁.2.1 (some m) = some r₂ ∧
        Parameters.found L r₂.1 r₂.2.1 = Parameters.found L r₁.1 r₁.2.1) ∧
    ∀ a b ab r₁, Parameters.MergeSource ops h p a → Parameters.MergeSource ops h p b →
      Parameters.MergeSource ops h p ab → ab.values h = Parameters.overlay (b.values h) (a.values h) →
      Parameters.RoomFor (a.entryCount h) (a.dataCount h) (h, p.mMetadata) →
      merge L ops h p (some a) = some r₁ →
      Parameters.RoomFor (b.entryCount r₁.1) (b.dataCount r₁.1) (r₁.1, r₁.2.1.mMetadata) →
      Parameters.RoomFor (ab.entryCount h) (ab.dataCount h) (h, p.mMetadata) →
      ((∃ r₂ r₃, merge L ops r₁.1 r₁.2.1 (some b) = some r₂ ∧ merge L ops h p (some ab) = some r₃ ∧
          Parameters.found L r₂.1 r₂.2.1 = Parameters.found L r₃.1 r₃.2.1) ↔
        ¬ StaleWord (r₁.2.1.mMetadata.records r₁.1) (b.records r₁.1) ∧
          ¬ StaleWord (p.mMetadata.records h) (ab.records h)) := by
  refine ⟨fun m hs hr => ⟨?_, fun hst => ?_⟩, rfl, fun m he => merge_empty L ops p he, ?_, ?_⟩
  · rintro ⟨r, e, -⟩
    exact (merge_some hmalloc hp hs hr e).1
  · obtain ⟨r, e⟩ := (merge_isSome_iff hmalloc hp hs hr).mpr hst
    obtain ⟨-, hm, -⟩ := merge_some hmalloc hp hs hr e
    refine ⟨r, e, fun tag => ?_, hm.source, hm.packet_other hs⟩
    rw [hm.found_eq]
    show (m.values h tag).or (p.mMetadata.values h tag) = _
    rw [← Parameters.find_of_holds (L := L) (hp.mono fun _ hm => hm.1) tag]
    rfl
  · intro m r₁ hs hr e₁ hr'
    obtain ⟨-, hm, hz⟩ := merge_some hmalloc hp hs hr e₁
    obtain ⟨r₂, e₂⟩ := (merge_isSome_iff hmalloc hz (hm.mergeSource hs) hr').mpr
      (not_staleWord_again hs hm hz)
    refine ⟨r₂, e₂, ?_⟩
    rw [found_merge_merge hmalloc hs hm hz hr' e₂, hm.found_eq, Parameters.overlay_twice]
  · intro a b ab r₁ ha hb hab hv hr e₁ hr' hr''
    obtain ⟨-, hm, hz⟩ := merge_some hmalloc hp ha hr e₁
    rw [← merge_isSome_iff hmalloc hz (hm.mergeSource hb) hr', ← merge_isSome_iff hmalloc hp hab hr'']
    constructor
    · rintro ⟨r₂, r₃, e₂, e₃, -⟩
      exact ⟨⟨r₂, e₂⟩, ⟨r₃, e₃⟩⟩
    · rintro ⟨⟨r₂, e₂⟩, ⟨r₃, e₃⟩⟩
      obtain ⟨-, hm₃, -⟩ := merge_some hmalloc hp hab hr'' e₃
      refine ⟨r₂, r₃, e₂, e₃, ?_⟩
      rw [found_merge_merge hmalloc hb hm hz hr' e₂, hm₃.found_eq, hv, Parameters.overlay_assoc]

/-- An object whose AE mode is `data` and beside it one whose AE mode is `data'`. -/
def twoObjects (data data' : List UInt8) : Heap × CameraMetadata × CameraMetadata :=
  let first := CameraMetadata.update referenceLibc none .empty .empty controlAeMode .byte none data
    data.length
  let second := CameraMetadata.update referenceLibc none first.2.1 .empty controlAeMode .byte none data'
    data'.length
  (second.2.1, first.2.2, second.2.2)

theorem twoObjects_spec {data data' : List UInt8} (hd : data.length ≤ 4) (hd' : data'.length ≤ 4)
    {s : Heap × CameraMetadata × CameraMetadata} (hs : twoObjects data data' = s) :
    s.2.2.Holds (IsZeroedMap none) s.1 ∧
      Parameters.MergeSource none s.1 { mMetadata := s.2.2 } s.2.1 := by
  obtain ⟨h₁, m, e1, u1, -⟩ := update_first .empty data hd
  obtain ⟨h, c, e2, u2, hc⟩ := update_first h₁ data' hd'
  have hs' : s = (h, m, c) := by
    rw [← hs]
    unfold twoObjects
    rw [e1]
    dsimp only
    rw [e2]
  rw [hs']
  obtain ⟨hm, -⟩ := u1.map ⟨rfl, fun q hq => nomatch hq⟩
  -- the second object was built beside the first
  have hlive : ∀ q, m.mBuffer = some q → ∃ x, h₁.get q = some x ∧ h.get q = some x ∧
      IsMap none (2 ^ 32) x := by
    intro q hq
    obtain ⟨x, hx, hmap⟩ := hm.packet q hq
    exact ⟨x, hx, u2.frame.others q x (fun he => nomatch he) hx, hmap⟩
  refine ⟨hc, ⟨hm.unlocked, fun q hq => ?_⟩, fun x hpk => ?_, fun q hq hown => ?_⟩
  · obtain ⟨x, -, hx, hmap⟩ := hlive q hq
    exact ⟨x, hx, hmap.toIsTyped⟩
  · obtain ⟨q, hq, hx⟩ := Option.bind_eq_some_iff.mp hpk
    obtain ⟨y, -, hy, hmap⟩ := hlive q hq
    rw [hx] at hy
    obtain rfl := Option.some.inj hy
    exact hmap.nodup
  · obtain ⟨x, hx, -, -⟩ := hlive q hq
    rcases u2.frame.own q hown with ho | hnew
    · cases ho
    · rw [hx] at hnew
      cases hnew

/-- An object with one entry and one with another value of the same tag: the value merged is found, and
still is after a second merge. -/
theorem merge_union_iff_demo : ∃ (h : Heap) (p : Parameters) (m : CameraMetadata),
    Parameters.found referenceLibc h p controlAeMode = some ⟨controlAeMode, MetaType.byte.code, [0]⟩ ∧
      ∃ r₁ r₂, merge referenceLibc none h p (some m) = some r₁ ∧
        merge referenceLibc none r₁.1 r₁.2.1 (some m) = some r₂ ∧
        Parameters.found referenceLibc r₁.1 r₁.2.1 controlAeMode =
          some ⟨controlAeMode, MetaType.byte.code, [1]⟩ ∧
        Parameters.found referenceLibc r₂.1 r₂.2.1 = Parameters.found referenceLibc r₁.1 r₁.2.1 := by
  generalize hs : twoObjects [1] [0] = s
  obtain ⟨hc, hm⟩ := twoObjects_spec (by decide) (by decide) hs
  have hroom : Parameters.RoomFor (s.2.1.entryCount s.1) (s.2.1.dataCount s.1) (s.1, s.2.2) ∧
      s.2.1.values s.1 controlAeMode = some ⟨controlAeMode, MetaType.byte.code, [1]⟩ ∧
      Parameters.found referenceLibc s.1 { mMetadata := s.2.2 } controlAeMode =
        some ⟨controlAeMode, MetaType.byte.code, [0]⟩ ∧
      (∀ e ∈ s.2.1.records s.1, e.count ≠ 0) ∧
      ∀ r ∈ merge referenceLibc none s.1 { mMetadata := s.2.2 } (some s.2.1),
        Parameters.RoomFor (s.2.1.entryCount r.1) (s.2.1.dataCount r.1) (r.1, r.2.1.mMetadata) := by
    rw [← hs]
    unfold Parameters.RoomFor
    decide
  have hunion := merge_union_iff referenceLibc none (fun _ => rfl) s.1 { mMetadata := s.2.2 } hc
  obtain ⟨r₁, e₁, hfind, -⟩ := (hunion.1 s.2.1 hm hroom.1).mpr fun ⟨i, e, f, hi, h0, _⟩ =>
    hroom.2.2.2.1 e (List.mem_of_getElem? hi) h0
  obtain ⟨r₂, e₂, hsame⟩ := hunion.2.2.2.1 s.2.1 r₁ hm hroom.1 e₁ (hroom.2.2.2.2 r₁ e₁)
  refine ⟨s.1, { mMetadata := s.2.2 }, s.2.1, hroom.2.2.1, r₁, r₂, e₁, e₂,
    (hfind controlAeMode).trans ?_, hsame⟩
  rw [hroom.2.1]
  rfl

/-- An AE mode of no values ends the process when `p` has one that is not zero. -/
theorem merge_not_union : ¬ ∀ (h : Heap) (p : Parameters) (m : CameraMetadata),
    p.mMetadata.Holds (IsZeroedMap none) h → Parameters.MergeSource none h p m →
      Parameters.RoomFor (m.entryCount h) (m.dataCount h) (h, p.mMetadata) →
      ∃ r, merge referenceLibc none h p (some m) = some r ∧
        ∀ tag, Parameters.found referenceLibc r.1 r.2.1 tag =
          (m.values h tag).or (Parameters.found referenceLibc h p tag) := by
  intro hall
  generalize hs : twoObjects [] [1] = s
  obtain ⟨hc, hm⟩ := twoObjects_spec (by decide) (by decide) hs
  have hends : Parameters.RoomFor (s.2.1.entryCount s.1) (s.2.1.dataCount s.1) (s.1, s.2.2) ∧
      merge referenceLibc none s.1 { mMetadata := s.2.2 } (some s.2.1) = none := by
    rw [← hs]
    unfold Parameters.RoomFor
    decide
  obtain ⟨r, e, -⟩ := hall s.1 { mMetadata := s.2.2 } s.2.1 hc hm hends.1
  rw [hends.2] at e
  cases e

end Asserting

end IntelCamera
