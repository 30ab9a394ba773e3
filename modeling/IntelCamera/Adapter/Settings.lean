import IntelCamera.Adapter.Order

/-!
# Adapter.Settings — the settings of a request while the HAL reads them

`capture` copies the pointer `mRequestSettings` into the request and gives up the lock for the whole
call of the HAL.  `setParameters` works on the same packet: an update overwrites it, or allocates a
larger one and frees it; `close` frees it and leaves the pointer.  The packet behind a request is
stable exactly as long as neither of them runs in the window of a capture and no request is built
after `close`.
-/

namespace IntelCamera

open Lib

namespace System

variable {T : Type} {env : Env}

/-- While the HAL works on a request, the settings it refers to are live and have the entries they had
when the request was built. -/
def SettingsStable (s : System T) : Prop := ∀ t c p, s.threads t = .inHal c →
  c.request.settings = some p → ∃ m, s.adapter.heap.get p = some m ∧ c.entries = some m.abs

/-- The settings of every capture in its window are stable; those of the adapter are live until
`close`. -/
structure Settled (s : System T) : Prop where
  live : s.hist.closed = false → s.adapter.SettingsLive
  stable : ∀ t c p, (s.threads t).window = some c → c.request.settings = some p →
    ∃ m, s.adapter.heap.get p = some m ∧ c.entries = some m.abs

/-- Steps that leave the packets alone and open no window. -/
theorem Settled.frame {s s' : System T} (h : Settled s) (hh : s'.adapter.heap = s.adapter.heap)
    (hr : s'.adapter.mRequestSettings = s.adapter.mRequestSettings)
    (hc : s'.hist.closed = false → s.hist.closed = false)
    (ht : ∀ t c, (s'.threads t).window = some c → ∃ u, (s.threads u).window = some c) :
    Settled s' := by
  refine ⟨fun hcl p hp => ?_, fun t c p hw hs => ?_⟩
  · rw [hr] at hp
    rw [hh]
    exact h.live (hc hcl) p hp
  · obtain ⟨u, hu⟩ := ht t c hw
    rw [hh]
    exact h.stable u c p hu hs

/-- In a quiet state only the settings of the adapter matter. -/
theorem settled_of_quiet {s : System T} (hq : Quiet s)
    (hl : s.hist.closed = false → s.adapter.SettingsLive) : Settled s := by
  refine ⟨hl, fun t c p hw _ => ?_⟩
  have := hq t
  rw [Pc.inWindow, hw] at this
  cases this

/-- A new adapter whose settings, if it has any, are a live packet. -/
def Opened (s : System T) : Prop := Fresh s ∧ s.adapter.SettingsLive

theorem opened_settled {s : System T} (h : Opened s) : Settled s :=
  settled_of_quiet (fun t => by rw [h.1.idle t]; rfl) fun _ => h.2

/-- `setParameters` and `close` touch the settings only while no capture is in its window, and after
`close` the settings are not used any more. -/
def unshared (env : Env) (s : System T) : Act T → Prop
  | .setParameters _ _ => s.adapter.mRequestSettings.isSome ∧ env.staticMetadata.isSome →
      Quiet s ∧ s.hist.closed = false
  | .close _ => s.adapter.mRequestSettings.isSome → Quiet s ∧ s.hist.closed = false
  | act => Submits s act ∧ s.adapter.mRequestSettings.isSome → s.hist.closed = false

variable [DecidableEq T]

/-- The request of a capture refers to the live settings of the adapter. -/
theorem Settled.submit {s : System T} (h : Settled s) {a : Adapter} {w : BufferWrapper}
    {request : Request} (hs : request.settings = s.adapter.mRequestSettings)
    (hr : a.mRequestSettings = s.adapter.mRequestSettings) (hh : a.heap = s.adapter.heap)
    (hc : s.adapter.mRequestSettings.isSome → s.hist.closed = false) (t : T) (caller : Caller)
    (ticket : ℕ) : Settled (submit s t a w request caller ticket) := by
  refine ⟨fun hcl p hp => ?_, fun u c p hw hset => ?_⟩
  · simp only [System.submit] at hp ⊢
    rw [hr] at hp
    rw [hh]
    exact h.live hcl p hp
  · simp only [System.submit] at hw ⊢
    by_cases hut : u = t
    · subst hut
      rw [Function.update_self] at hw
      obtain rfl := Option.some.inj hw
      dsimp only at hset ⊢
      have hp : s.adapter.mRequestSettings = some p := hs ▸ hset
      obtain ⟨m, hm⟩ := Option.isSome_iff_exists.mp (h.live (hc (by rw [hp]; rfl)) p hp)
      exact ⟨m, by rw [hh, hm], by rw [hset, hh, Option.bind_some, hm, Option.map_some]⟩
    · rw [Function.update_of_ne hut] at hw
      rw [hh]
      exact h.stable u c p hw hset

theorem Settled.resumed {s s' : System T} {t : T} (h : Settled s)
    (hc : Drains s ∧ s.adapter.mRequestSettings.isSome → s.hist.closed = false)
    (hr : Resumed s t s') : Settled s' := by
  cases hr with
  | done _ => exact h.frame rfl rfl id fun u c hu => ⟨u, update_pc_none rfl hu⟩
  | next sk w rest rq a hpend _ hok hs =>
    have h' : Settled { s with hist := { s.hist with
        passed := s.hist.passed ++ (sk ++ [w]).map (·.buffer)
        pendingTickets := s.hist.pendingTickets.drop (sk.length + 1) } } :=
      h.frame rfl rfl id fun u c hu => ⟨u, hu⟩
    exact h'.submit hs.settings hs.requestSettings hs.heap
      (fun hsome => hc ⟨⟨w, by simp [hpend], hok⟩, hsome⟩) _ _ _

/-- **What the HAL reads is left alone** by every allowed step. -/
theorem settled_step {s s' : System T} {act : Act T} (h : Settled s) (ha : unshared env s act)
    (hst : step env s act = some s') : Settled s' := by
  cases step_cases hst with
  | null | park | refuse | stop | timeout | dequeue | write =>
    exact h.frame rfl rfl id fun u c hu => ⟨u, hu⟩
  | queue t sid b o rq a _ hst' hok hs =>
    have h' : Settled { s with hist := { s.hist with
        tickets := s.hist.tickets + 1
        passed := s.hist.passed ++ [b] } } := h.frame rfl rfl id fun u c hu => ⟨u, hu⟩
    exact h'.submit hs.settings hs.requestSettings hs.heap (fun hsome => ha ⟨⟨hst', hok⟩, hsome⟩) _ _ _
  | start t o s'' _ hr =>
    have h' : Settled { s with adapter := { s.adapter with mStarted := true } } :=
      h.frame rfl rfl id fun u c hu => ⟨u, hu⟩
    exact h'.resumed ha hr
  | resume t c st o s'' hc hk hr =>
    refine h.resumed (fun hd => ha ⟨⟨?_, hd.1⟩, hd.2⟩) hr
    rw [hc, Pc.caller, hk]
  | finish t c st o _ _ => exact h.frame rfl rfl id fun u c hu => ⟨u, update_pc_none rfl hu⟩
  | halBegin t c hc =>
    refine h.frame rfl rfl id fun u d hu => ⟨u, ?_⟩
    rwa [← update_pc_same Pc.window (.inHal c) (by rw [hc]; rfl)]
  | halEnd t c st hc =>
    exact h.frame rfl rfl id fun u d hu => ⟨u, update_pc_none rfl hu⟩
  | result r stale a ha' =>
    refine h.frame ?_ ?_ id fun u c hu => ⟨u, hu⟩ <;>
      rcases Adapter.processCaptureResult_cases ha' with ⟨-, hd, rs, -, rfl⟩ | ⟨-, cl, rfl, -⟩ <;> rfl
  | setParameters t param st a _ hcall =>
    by_cases hset : s.adapter.mRequestSettings.isSome ∧ env.staticMetadata.isSome
    · obtain ⟨hq, hcl⟩ := ha hset
      exact settled_of_quiet hq fun _ => Adapter.setParameters_live (h.live hcl) hcall
    · rw [Adapter.setParameters_refused param hset] at hcall
      obtain ⟨-, rfl⟩ := Prod.mk.inj (Option.some.inj hcall)
      exact h
  | close t _ =>
    cases hset : s.adapter.mRequestSettings with
    | none =>
      refine h.frame ?_ rfl (fun hcl => by cases hcl) fun u c hu => ⟨u, hu⟩
      simp [Adapter.close, hset]
    | some p =>
      have ha : s.adapter.mRequestSettings.isSome → Quiet s ∧ s.hist.closed = false := ha
      exact settled_of_quiet (ha (by rw [hset]; rfl)).1 fun hcl => by cases hcl

/-- **Stability of the settings.**  In every run in which `setParameters` and `close` touch the
settings only outside the windows of the captures, and nothing uses them after `close`, the HAL always
reads live settings with the entries of its request. -/
theorem settingsStable_of_unshared {s : System T} (h : Reach (step env) (unshared env) Opened s) :
    SettingsStable s := by
  have hinv : Settled s := h.invariant (fun _ => opened_settled)
    fun _ _ _ _ hi ha hst => settled_step hi ha hst
  intro t c p hc
  exact hinv.stable t c p (by rw [hc]; rfl)

instance [Fintype T] (env : Env) (s : System T) : (act : Act T) → Decidable (unshared env s act)
  | .setParameters .. => inferInstanceAs (Decidable (_ ∧ _ → _))
  | .close .. => inferInstanceAs (Decidable (_ → _))
  | .qBuf .. | .start .. | .halBegin .. | .halEnd .. | .relock .. | .stop .. | .dqBuf .. | .result ..
  | .write .. => inferInstanceAs (Decidable (_ ∧ _ → _))

/-- Static metadata is there, though without the entries the conversions look for. -/
def demoSettingsEnv : Env := { demoEnv with staticMetadata := some (demoMetadata 0) }

/-- The adapter of the other runs, with a full packet as settings. -/
def demoSettings : System (Fin 2) :=
  let s := demoSystem (Fin 2)
  { s with adapter := { s.adapter with
      heap := Store.empty.alloc (demoMetadata 7)
      mRequestSettings := some 0 } }

theorem demoSettings_opened : Opened demoSettings := by
  refine ⟨⟨rfl, rfl, rfl, rfl, fun _ => rfl, fun _ => rfl, rfl⟩, ?_⟩
  intro p hp
  obtain rfl := Option.some.inj hp
  rfl

theorem settingsStable_of_unshared_after_setParameters : ∃ s : System (Fin 2),
    Reach (step demoSettingsEnv) (unshared demoSettingsEnv) Opened s ∧ s.threads 0 ≠ .idle ∧
    SettingsStable s := by
  obtain ⟨s, h, hv⟩ := Reach.of_exec (f := fun s : System (Fin 2) => decide (s.threads 0 = .idle))
    (v := false) demoSettings_opened
    (show (exec (step demoSettingsEnv) (unshared demoSettingsEnv) demoSettings
      [.setParameters 1 {}, .start 0 (.failed 0), .qBuf 0 0 (some 1) (.failed 0),
        .halBegin 0]).map _ = _ by decide)
  exact ⟨s, h, of_decide_eq_false hv, settingsStable_of_unshared h⟩

/-- The request for the buffer `1`, with the settings above. -/
def demoCall : Call := ⟨⟨0, some 0, 1001⟩, .qBuf, ⟨0, 0, 1, 1001⟩, some (demoMetadata 7).abs⟩

/-- `setParameters` on another thread, while the HAL has the request: the packet is too small for the
AE mode, and the one the request refers to is freed. -/
theorem setParameters_not_settingsStable : ¬ ∀ s : System (Fin 2),
    Reach (step demoSettingsEnv) (fun _ _ => True) Opened s → SettingsStable s := by
  intro hall
  obtain ⟨s, h, hv⟩ := Reach.of_exec
    (f := fun s : System (Fin 2) => (decide (s.threads 0 = .inHal demoCall), s.adapter.heap.get 0))
    (v := (true, none)) demoSettings_opened
    (show (exec (step demoSettingsEnv) (fun _ _ => True) demoSettings
      [.start 0 (.failed 0), .qBuf 0 0 (some 1) (.failed 0), .halBegin 0,
        .setParameters 1 {}]).map _ = _ by decide)
  obtain ⟨m, hm, -⟩ := hall s h 0 demoCall 0 (of_decide_eq_true (congrArg Prod.fst hv)) rfl
  have hfree : s.adapter.heap.get 0 = none := congrArg Prod.snd hv
  rw [hfree] at hm
  cases hm

end System

end IntelCamera
