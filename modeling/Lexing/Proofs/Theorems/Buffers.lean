import Lexing.Proofs.Lemmas.Buffers

/-!
# Buffers behind two levels

An event passes the level of the service and that of its distributor, goes to each target as often as the target was registered, and
pushes the oldest event out of a buffer that is full. `buffers_keep_last` says what comes of all this in any sequence of actions: a
buffer is the end of what it was sent since it was emptied last. Levels that let less through take events away from what is sent and
leave the others in their order.
-/

namespace Lexing.Switchboard

/-- After any actions, so at every moment, each buffer holds the last of the events it was sent since it was emptied, as many as it
has room for and in their order, and never more. With lower levels a buffer is sent some of these events in the same order. -/
theorem buffers_keep_last (limits : Limits) (h : 0 < limits.logBufferSize) (own distributor : Level) (targets : List Target)
    {count slot : Nat} (hslot : slot < count) (actions : List Action) :
    (((distributing own distributor targets count).applyAll limits actions).buffer slot).events.toList =
        (received own distributor targets slot actions).drop
          ((received own distributor targets slot actions).length -
            min (received own distributor targets slot actions).length limits.logBufferSize) ∧
      (((distributing own distributor targets count).applyAll limits actions).buffer slot).size ≤ limits.logBufferSize ∧
      ∀ own' ≤ own, ∀ distributor' ≤ distributor,
        (received own' distributor' targets slot actions).Sublist (received own distributor targets slot actions) := by
  obtain ⟨kept, hkept, hholds⟩ := holds_applyAll h hslot own distributor targets actions
  have hbuffer : ((distributing own distributor targets count).applyAll limits actions).buffer slot = kept := by
    rw [buffer, hkept]
    rfl
  rw [hbuffer]
  refine ⟨?_, hholds.size_le, ?_⟩
  · have hlast : (received own distributor targets slot actions).length -
          min (received own distributor targets slot actions).length limits.logBufferSize =
        (received own distributor targets slot actions).length - limits.logBufferSize := by omega
    rw [hlast]
    exact hholds
  · intro own' hown distributor' hdistributor
    exact received_sublist hown hdistributor targets slot actions

/-- Room for three events in each buffer. -/
def threeEvents : Limits :=
  { Limits.development with logBufferSize := 3, maxEventsPerFile := 1, eventsPerFile_le := by decide }

/-- The first buffer is registered twice, so each event that passes comes to it twice. The remark passes the service and not the
distributor, and after the second event one copy of the first is gone. -/
theorem buffers_keep_last_twice :
    let event (level : Level) (message : String) : Event := ⟨level, "C001", message, none, []⟩
    let actions : List Action :=
      [.put 0 (event .debug "old"), .clear 0, .log (event .error "a"), .log (event .debug "b"), .log (event .warning "c")]
    0 < threeEvents.logBufferSize ∧ 0 < 2 ∧
      (((distributing .debug .info [.buffer 0, .buffer 1, .buffer 0] 2).applyAll threeEvents actions).buffer 0).events.toList =
        [event .error "a", event .warning "c", event .warning "c"] := by
  intro event actions
  have h : 0 < threeEvents.logBufferSize := by decide
  obtain ⟨hkept, -⟩ := buffers_keep_last threeEvents h .debug .info [.buffer 0, .buffer 1, .buffer 0] (by decide : 0 < 2) actions
  have hreceived : received .debug .info [.buffer 0, .buffer 1, .buffer 0] 0 actions =
      [event .error "a", event .error "a", event .warning "c", event .warning "c"] := by decide
  rw [hreceived] at hkept
  exact ⟨h, by decide, hkept⟩

end Lexing.Switchboard
