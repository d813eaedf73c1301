import PicoWLogger.Proofs.EraseOutcome

/-! The flash maintenance flag over runs of calls. An erase that stops early leaves it set, and the
sensor tasks then skip every turn. -/

namespace PicoWLogger
open FlashLogStorage

namespace FlashLogStorage

def Ready (s : FlashLogStorage) : Prop :=
  s.initialized = true → isConfigValid s.config = true ∧ s.mutexCreated = true

/-- An erase that passes its guards finds every lock and every status poll answered in time. -/
def Erasable (s : FlashLogStorage) : Prop :=
  s.initialized = true → Answered s.sharedIo s.flash.polls s.config.sectors

variable {s : FlashLogStorage}

theorem callAll_concat (s : FlashLogStorage) (calls : List FlashCall) (call : FlashCall) :
    s.callAll (calls ++ [call]) = (s.callAll calls).call call := List.foldl_append

theorem init_ready (ready : s.Ready) (created : Bool) :
    (s.init created).2.Ready ∧ (s.init created).2.maintenanceBusy = s.maintenanceBusy := by
  rw [init]
  split
  · exact ⟨ready, rfl⟩
  · next valid =>
    split
    · exact ⟨ready, rfl⟩
    · rw [rebuildIndexFromFlash_keeps]
      have accepted : isConfigValid s.config = true := by simpa using valid
      exact ⟨fun _ => ⟨accepted, rfl⟩, rfl⟩

theorem new_ready (flash : FlashDriver) (config : Config) (sharedIo : Nat → Bool) : (new flash config sharedIo).Ready := nofun

theorem cutAppend_ready (s : FlashLogStorage) (budget : Nat) (data : List UInt8) :
    (s.cutAppend budget data).Ready ∧ (s.cutAppend budget data).maintenanceBusy = false :=
  init_ready (new_ready _ _ _) true

theorem call_busy (ready : s.Ready) (idle : s.maintenanceBusy = false) (call : FlashCall) :
    (s.call call).Ready ∧ ((s.call call).maintenanceBusy = false ↔ (call = .eraseLogArea → s.Erasable)) := by
  cases call with
  | init created =>
    obtain ⟨still, same⟩ := init_ready ready created
    exact ⟨still, iff_of_true (same.trans idle) FlashCall.noConfusion⟩
  | append record =>
    have retains := Retains.append s record.frame
    refine ⟨?_, iff_of_true (retains.maintenanceBusy.trans idle) FlashCall.noConfusion⟩
    intro initialized
    obtain ⟨config, locked⟩ := ready (retains.initialized.symm.trans initialized)
    exact ⟨by rw [FlashLogStorage.call, retains.config]; exact config, retains.mutexCreated.trans locked⟩
  | cut record budget =>
    obtain ⟨still, cleared⟩ := cutAppend_ready s budget record.frame
    exact ⟨still, iff_of_true cleared FlashCall.noConfusion⟩
  | eraseLogArea =>
    by_cases initialized : s.initialized = true
    · obtain ⟨config, locked⟩ := ready initialized
      obtain ⟨flash, sharedIo, outcome, _⟩ := eraseLogArea_outcome config initialized locked
      rw [FlashLogStorage.call]
      cases outcome with
      | erased answered same =>
        rw [same]
        exact ⟨fun _ => ⟨config, locked⟩, iff_of_true rfl fun _ _ => answered⟩
      | stopped failed same =>
        rw [same]
        refine ⟨fun _ => ⟨config, locked⟩, iff_of_false Bool.noConfusion ?_⟩
        exact fun all => failed (all rfl initialized)
    · have refused : s.eraseLogArea = (false, s) := by
        rw [eraseLogArea, if_pos (by simpa using initialized)]
      rw [FlashLogStorage.call, refused]
      exact ⟨ready, iff_of_true idle fun _ passed => absurd passed initialized⟩

theorem callAll_idle (ready : s.Ready) (idle : s.maintenanceBusy = false) (calls : List FlashCall)
    (erasable : ∀ front, front ++ [.eraseLogArea] <+: calls → (s.callAll front).Erasable) :
    (s.callAll calls).Ready ∧ (s.callAll calls).maintenanceBusy = false := by
  induction calls using List.reverseRecOn with
  | nil => exact ⟨ready, idle⟩
  | append_singleton front call ih =>
    have earlier : ∀ first, first ++ [.eraseLogArea] <+: front → (s.callAll first).Erasable := by
      intro first inside
      exact erasable first (inside.trans (List.prefix_append front _))
    obtain ⟨still, before⟩ := ih earlier
    obtain ⟨after, flag⟩ := call_busy still before call
    rw [callAll_concat]
    refine ⟨after, flag.mpr ?_⟩
    rintro rfl
    exact erasable front List.prefix_rfl

theorem callAll_ready (ready : s.Ready) (calls : List FlashCall)
    (clear : ∀ front, front <+: calls → (s.callAll front).maintenanceBusy = false) : (s.callAll calls).Ready := by
  induction calls using List.reverseRecOn with
  | nil => exact ready
  | append_singleton front call ih =>
    rw [callAll_concat]
    have before := List.prefix_append front [call]
    exact (call_busy (ih fun first inside => clear first (inside.trans before)) (clear front before) call).1

theorem sensorTurn_measured (idle : s.maintenanceBusy = false) : s.sensorTurn = .measured := by
  rw [sensorTurn, isFlashMaintenanceBusy, idle]
  exact if_neg Bool.false_ne_true

/-- Behind a first erase that stops early both sensor tasks skip their turns. -/
theorem first_erase_stopped (config : isConfigValid s.config = true) (idle : s.maintenanceBusy = false)
    (failed : ¬ Answered s.sharedIo s.flash.polls s.config.sectors) :
    let started := s.call (.init true)
    started.maintenanceBusy = false ∧ started.eraseLogArea.1 = false ∧ started.eraseLogArea.2.maintenanceBusy = true ∧
      (started.call .eraseLogArea).temperatureTask = .skipped ∧ (started.call .eraseLogArea).environmentTask = .skipped := by
  intro started
  have isStarted : started = (s.init true).2 := rfl
  rw [init_eq config, rebuildIndexFromFlash_keeps] at isStarted
  obtain ⟨flash, sharedIo, outcome, _⟩ := eraseLogArea_outcome (s := started) (by rw [isStarted]; exact config)
    (by rw [isStarted]; rfl) (by rw [isStarted]; rfl)
  cases outcome with
  | erased answered =>
    rw [isStarted] at answered
    exact absurd answered failed
  | stopped _ same =>
    have busy : started.eraseLogArea.2.maintenanceBusy = true := by rw [same]
    exact ⟨by rw [isStarted]; exact idle, by rw [same], busy, if_pos busy, if_pos busy⟩

end FlashLogStorage

/-- Maintenance ends: over any run of calls the flag is clear between them, and no turn of a sensor task
is skipped there, if and only if every erase finds its locks and polls answered in time. -/
theorem maintenance_ends_iff (flash : FlashDriver) (config : Config) (sharedIo : Nat → Bool) (calls : List FlashCall) :
    let storage := FlashLogStorage.new flash config sharedIo
    (∀ front, front <+: calls →
        (storage.callAll front).maintenanceBusy = false ∧ (storage.callAll front).temperatureTask = .measured ∧
          (storage.callAll front).environmentTask = .measured) ↔
      ∀ front, front ++ [.eraseLogArea] <+: calls → (storage.callAll front).Erasable := by
  intro storage
  have ready : storage.Ready := new_ready flash config sharedIo
  constructor
  · intro clear front inside
    have before := (List.prefix_append front _).trans inside
    have busy (first : List FlashCall) (within : first <+: front) := (clear first (within.trans before)).1
    have after := (clear _ inside).1
    rw [callAll_concat] at after
    have still := callAll_ready ready front busy
    exact (call_busy still (busy front List.prefix_rfl) .eraseLogArea).2.mp after rfl
  · intro erasable front inside
    have idle := (callAll_idle ready rfl front fun first within => erasable first (within.trans inside)).2
    exact ⟨idle, sensorTurn_measured idle, sensorTurn_measured idle⟩

/-- The flash lock of a first erase times out: the flag stays, and both sensor tasks skip. -/
theorem maintenance_left_on :
    let chip : FlashDriver := { cells := fun _ => 0xFF, polls := fun _ => true, power := none, requests := [] }
    let started := (FlashLogStorage.new chip ⟨0, 8192⟩ fun _ => false).call (.init true)
    started.maintenanceBusy = false ∧ started.eraseLogArea.1 = false ∧
      started.eraseLogArea.2.maintenanceBusy = true ∧ (started.call .eraseLogArea).temperatureTask = .skipped ∧
      (started.call .eraseLogArea).environmentTask = .skipped := by
  intro chip
  have unlocked : ¬ Answered (fun _ => false) (fun _ => true) (Config.sectors ⟨0, 8192⟩) :=
    fun answered => Bool.noConfusion (answered 0 (by decide)).1
  exact first_erase_stopped (s := FlashLogStorage.new chip ⟨0, 8192⟩ fun _ => false) (by decide) rfl unlocked

end PicoWLogger
