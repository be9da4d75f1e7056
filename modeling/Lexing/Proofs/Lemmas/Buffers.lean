import Lexing.Diagnostic.Service
import Mathlib.Data.List.DropRight
import Mathlib.Data.List.Induction

/-!
# What a buffer keeps

A full buffer gives up its oldest event for a new one, so it keeps the last of the events it was sent, as many as it has room for
(`Holds.push`). Which events it was sent is told by what was done with the switchboard (`received`): an event given to the service
comes once for each registration of the buffer, if its level passes both levels, an event put there comes once, and with an emptied
buffer the telling starts anew. One more action keeps the buffer to that (`holds_applyAll`).
-/

namespace Lexing

namespace Buffer

variable {limits : Limits} {sent : List Event} {buffer : Buffer}

/-- A buffer holds the last of the events it was sent, as many as it has room for. -/
def Holds (limits : Limits) (sent : List Event) (buffer : Buffer) : Prop :=
  buffer.events.toList = sent.rtake limits.logBufferSize

theorem holds_empty (limits : Limits) : Holds limits [] empty := by
  rw [Holds, List.rtake_nil]
  rfl

/-- A new event goes behind the events of a buffer, and the oldest are given up if there are too many then. -/
theorem toList_push (h : 0 < limits.logBufferSize) (buffer : Buffer) (event : Event) :
    (buffer.push limits event).events.toList = (buffer.events.toList ++ [event]).rtake limits.logBufferSize := by
  unfold push
  by_cases hfull : limits.logBufferSize ≤ buffer.events.size
  · have hdrop : buffer.events.toList.length + 1 - limits.logBufferSize =
        buffer.events.size - limits.logBufferSize + 1 := by
      rw [Array.length_toList]
      omega
    have hle : buffer.events.size - limits.logBufferSize + 1 ≤ buffer.events.toList.length := by
      rw [Array.length_toList]
      omega
    simp only [if_pos hfull, Array.toList_push, Array.toList_extract, List.rtake, List.length_append, List.length_singleton, hdrop,
      List.drop_append_of_le_length hle]
    rw [List.extract_eq_take_drop, ← Array.length_toList, List.take_of_length_le (by rw [List.length_drop])]
  · have hnone : buffer.events.toList.length + 1 - limits.logBufferSize = 0 := by
      rw [Array.length_toList]
      omega
    simp only [if_neg hfull, Array.toList_push, List.rtake, List.length_append, List.length_singleton, hnone, List.drop_zero]

/-- The last events of the last events and one more are the last of all of them. -/
theorem rtake_rtake_concat {n : Nat} (h : 0 < n) (events : List Event) (event : Event) :
    (events.rtake n ++ [event]).rtake n = (events ++ [event]).rtake n := by
  obtain ⟨k, rfl⟩ := Nat.exists_eq_succ_of_ne_zero (Nat.ne_of_gt h)
  rw [List.rtake_concat_succ, List.rtake_concat_succ, List.rtake, List.rtake, List.rtake, List.drop_drop, List.length_drop]
  congr 2
  omega

/-- One more event is sent. -/
theorem Holds.push (hb : buffer.Holds limits sent) (h : 0 < limits.logBufferSize) (event : Event) :
    (buffer.push limits event).Holds limits (sent ++ [event]) := by
  rw [Holds, toList_push h, hb, rtake_rtake_concat h]

/-- Several events are sent. -/
theorem Holds.pushAll (hb : buffer.Holds limits sent) (h : 0 < limits.logBufferSize) (events : List Event) :
    (events.foldl (Buffer.push limits) buffer).Holds limits (sent ++ events) := by
  induction events generalizing buffer sent with
  | nil => rwa [List.append_nil]
  | cons event rest ih =>
    have hrest := ih (hb.push h event)
    rwa [List.append_assoc] at hrest

/-- A buffer that keeps to its room holds no more events than that. -/
theorem Holds.size_le (hb : buffer.Holds limits sent) : buffer.size ≤ limits.logBufferSize := by
  rw [size, ← Array.length_toList, hb, List.rtake, List.length_drop]
  omega

end Buffer

namespace Switchboard

/-! ## Actions -/

/-- What is done with a switchboard. -/
inductive Action where
  /-- An event is given to the service. -/
  | log (event : Event)
  /-- An event is put into a buffer past the service. -/
  | put (slot : Nat) (event : Event)
  /-- A buffer is emptied. -/
  | clear (slot : Nat)
deriving DecidableEq, Repr

/-- Does one thing with a switchboard. -/
def apply (limits : Limits) (board : Switchboard) : Action → Switchboard
  | .log event => board.send limits event
  | .put slot event => board.sendTo limits slot event
  | .clear slot => board.clear slot

/-- Does one thing after another. -/
def applyAll (limits : Limits) (board : Switchboard) (actions : List Action) : Switchboard := actions.foldl (apply limits) board

/-- A service of its own level, with a distributor that has a level, too, and with some targets, beside some empty buffers. -/
def distributing (own distributor : Level) (targets : List Target) (count : Nat) : Switchboard :=
  ⟨⟨own, some distributor, targets⟩, Array.replicate count .empty⟩

variable {limits : Limits} {own distributor : Level} {targets : List Target} {slot count : Nat} {board : Switchboard}
  {action : Action} {actions : List Action}

/-- The events that an action sends to a buffer. One that is given to the service comes once for each registration of the buffer if
its level is at most both levels, and else not at all; one that is put there comes once. -/
def sends (own distributor : Level) (targets : List Target) (slot : Nat) : Action → List Event
  | .log event =>
    if event.level ≤ own ∧ event.level ≤ distributor then List.replicate (targets.count (.buffer slot)) event else []
  | .put place event => if place = slot then [event] else []
  | .clear _ => []

/-- The actions behind the last one that empties a buffer. -/
def sinceClear (slot : Nat) (actions : List Action) : List Action := actions.rtakeWhile fun action => action ≠ .clear slot

/-- The events that a buffer was sent since it was emptied last. -/
def received (own distributor : Level) (targets : List Target) (slot : Nat) (actions : List Action) : List Event :=
  (sinceClear slot actions).flatMap (sends own distributor targets slot)

/-- An emptied buffer was sent nothing since. -/
theorem received_clear (own distributor : Level) (targets : List Target) (slot : Nat) (actions : List Action) :
    received own distributor targets slot (actions ++ [.clear slot]) = [] := by
  rw [received, sinceClear, List.rtakeWhile_concat_neg _ _ _ (by simp)]
  rfl

/-- Any other action adds what it sends. -/
theorem received_concat (h : action ≠ .clear slot) (own distributor : Level) (targets : List Target) (actions : List Action) :
    received own distributor targets slot (actions ++ [action]) =
      received own distributor targets slot actions ++ sends own distributor targets slot action := by
  rw [received, sinceClear, List.rtakeWhile_concat_pos _ _ _ (by simp [h]), List.flatMap_append, List.flatMap_singleton]
  rfl

/-! ## Buffers -/

/-- Putting an event into one buffer leaves the others as they are. -/
theorem getElem?_put (limits : Limits) (event : Event) (buffers : Array Buffer) (target : Target) (slot : Nat) :
    (put limits event buffers target)[slot]? =
      if target = .buffer slot then buffers[slot]?.map (·.push limits event) else buffers[slot]? := by
  cases target with
  | buffer place => simp [put, Array.getElem?_modify]
  | console level => simp [put]
  | structured level => simp [put]

/-- Putting an event into all targets puts it into a buffer once for each registration. -/
theorem getElem?_foldl_put (limits : Limits) (event : Event) (targets : List Target) (buffers : Array Buffer) (slot : Nat) :
    (targets.foldl (put limits event) buffers)[slot]? =
      buffers[slot]?.map ((List.replicate (targets.count (.buffer slot)) event).foldl (Buffer.push limits)) := by
  induction targets generalizing buffers with
  | nil => simp
  | cons target rest ih =>
    rw [List.foldl_cons, ih, getElem?_put]
    by_cases ht : target = .buffer slot
    · simp [ht, List.replicate_succ, Function.comp_def]
    · simp [ht]

/-- A service with a distributor lets an event through whose level is at most both levels. -/
theorem passes_iff (own distributor : Level) (targets : List Target) (event : Event) :
    (Service.mk own (some distributor) targets).passes event = true ↔ event.level ≤ own ∧ event.level ≤ distributor := by
  simp [Service.passes, Service.lets]

/-- What an action that does not empty a buffer does with it. -/
theorem getElem?_apply (h : action ≠ .clear slot) (limits : Limits) (own distributor : Level) (targets : List Target)
    (buffers : Array Buffer) :
    (apply limits ⟨⟨own, some distributor, targets⟩, buffers⟩ action).buffers[slot]? =
      buffers[slot]?.map ((sends own distributor targets slot action).foldl (Buffer.push limits)) := by
  cases action with
  | log event =>
    simp only [apply, send, Service.deliver, passes_iff, sends]
    split
    · exact getElem?_foldl_put limits event targets buffers slot
    · simp
  | put place event =>
    simp only [apply, sendTo, getElem?_put, Target.buffer.injEq, sends]
    split <;> simp
  | clear place =>
    have hne : place ≠ slot := fun he => h (he ▸ rfl)
    simp [apply, Switchboard.clear, Array.getElem?_modify, hne, sends]

theorem service_apply (limits : Limits) (board : Switchboard) (action : Action) :
    (board.apply limits action).service = board.service := by
  cases action <;> rfl

theorem service_applyAll (limits : Limits) (board : Switchboard) (actions : List Action) :
    (board.applyAll limits actions).service = board.service := by
  induction actions generalizing board with
  | nil => rfl
  | cons action rest ih => exact (ih _).trans (service_apply limits board action)

/-- After any actions each buffer holds the last of what it was sent since it was emptied. -/
theorem holds_applyAll (h : 0 < limits.logBufferSize) (hslot : slot < count) (own distributor : Level) (targets : List Target)
    (actions : List Action) :
    ∃ buffer, ((distributing own distributor targets count).applyAll limits actions).buffers[slot]? = some buffer ∧
      buffer.Holds limits (received own distributor targets slot actions) := by
  induction actions using List.reverseRecOn with
  | nil => exact ⟨.empty, by simp [applyAll, distributing, hslot], Buffer.holds_empty limits⟩
  | append_singleton front action ih =>
    obtain ⟨buffer, hbuffer, hholds⟩ := ih
    have hservice := service_applyAll limits (distributing own distributor targets count) front
    have hstep : (distributing own distributor targets count).applyAll limits (front ++ [action]) =
        ((distributing own distributor targets count).applyAll limits front).apply limits action :=
      List.foldl_concat _ _ _ _
    rw [hstep]
    generalize (distributing own distributor targets count).applyAll limits front = board at hbuffer hservice ⊢
    obtain ⟨service, buffers⟩ := board
    obtain rfl : service = ⟨own, some distributor, targets⟩ := hservice
    by_cases hclear : action = .clear slot
    · subst hclear
      refine ⟨.empty, ?_, ?_⟩
      · simp [apply, Switchboard.clear, Array.getElem?_modify, hbuffer]
      · rw [received_clear]
        exact Buffer.holds_empty limits
    · have happly := getElem?_apply hclear limits own distributor targets buffers
      rw [hbuffer, Option.map_some] at happly
      refine ⟨_, happly, ?_⟩
      rw [received_concat hclear]
      exact hholds.pushAll h _

/-- A service with lower levels, or the same, sends a buffer some of the events, in the same order. -/
theorem received_sublist {own' distributor' : Level} (hown : own' ≤ own) (hdistributor : distributor' ≤ distributor)
    (targets : List Target) (slot : Nat) (actions : List Action) :
    (received own' distributor' targets slot actions).Sublist (received own distributor targets slot actions) := by
  have hsends (action : Action) :
      (sends own' distributor' targets slot action).Sublist (sends own distributor targets slot action) := by
    cases action with
    | log event =>
      by_cases hlow : event.level ≤ own' ∧ event.level ≤ distributor'
      · rw [sends, sends, if_pos hlow, if_pos ⟨Nat.le_trans hlow.1 hown, Nat.le_trans hlow.2 hdistributor⟩]
      · rw [sends, if_neg hlow]
        exact List.nil_sublist _
    | put place event => exact List.Sublist.refl _
    | clear place => exact List.Sublist.refl _
  unfold received
  induction sinceClear slot actions with
  | nil => exact List.Sublist.refl _
  | cons action rest ih =>
    rw [List.flatMap_cons, List.flatMap_cons]
    exact (hsends action).append ih

end Switchboard

end Lexing
