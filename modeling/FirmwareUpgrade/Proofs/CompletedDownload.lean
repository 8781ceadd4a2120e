import FirmwareUpgrade.Proofs.Downloading

/-!
# When a download passes for complete

After the empty block a device reports that it is at work on its firmware, and then that it is idle
or waits for a reset.  The polls of a download end with the first answer in any state other than
those of the work, and unless that state is `dfuError` only the status decides.  So a download that
succeeds has been confirmed by the device, or the device may leave the bus and did not answer any
more, exactly if the last answer does not show one of the states that have no place there.
-/

namespace FirmwareUpgrade

variable {ω : Type}

/-- The states of a device that has put its firmware into effect. -/
def State.ShowsCompletion (state : State) : Prop :=
  state = .dfuIdle ∨ state = .dfuManifestWaitReset

/-- The states that end the polls after the empty block without a failure. -/
def State.EndsManifestation (state : State) : Prop :=
  state ≠ .dfuManifestSync ∧ state ≠ .dfuManifest ∧ state ≠ .dfuError

/-- The last poll was answered without error in one of the given states, or a device that may leave
the bus did not answer it. -/
def Exchange.Concludes (states : State → Prop) (tolerant : Bool) (last : Exchange) : Prop :=
  (∃ state, states state ∧ last.report? = some (.ok, state)) ∨
    (∃ error, last = .receive .getStatus 0 6 (.error error)) ∧ tolerant = false

/-- The transfers end with an empty block that the device accepted and the polls after it, the last
of which is conclusive. -/
def EndsCompleted (states : State → Prop) (tolerant : Bool) (transfers : List Exchange) : Prop :=
  ∃ earlier block count polls last,
    transfers = earlier ++ .out .download block .empty (.ok count) :: (polls ++ [last]) ∧
    (∀ poll ∈ polls ++ [last], poll.request = .getStatus) ∧
    last.Concludes states tolerant

theorem EndsCompleted.append {states : State → Prop} {tolerant : Bool} {transfers : List Exchange}
    (hends : EndsCompleted states tolerant transfers) (first : List Exchange) :
    EndsCompleted states tolerant (first ++ transfers) := by
  obtain ⟨earlier, block, count, polls, last, rfl, hrest⟩ := hends
  exact ⟨first ++ earlier, block, count, polls, last, (List.append_assoc ..).symm, hrest⟩

theorem getLast?_append_cons_concat (earlier polls : List Exchange) (first last : Exchange) :
    (earlier ++ first :: (polls ++ [last])).getLast? = some last := by
  have hconcat : earlier ++ first :: (polls ++ [last]) = (earlier ++ first :: polls) ++ [last] := by
    simp
  rw [hconcat, List.getLast?_concat]

/-- Which of two sets of states is meant makes a difference for the last answer only. -/
theorem EndsCompleted.restrict_iff {states fewer : State → Prop} {tolerant : Bool}
    {transfers : List Exchange} (hends : EndsCompleted states tolerant transfers) :
    EndsCompleted fewer tolerant transfers ↔
      ∀ last state, transfers.getLast? = some last → last.report? = some (.ok, state) →
        fewer state := by
  obtain ⟨earlier, block, count, polls, final, rfl, hpolls, hfinal⟩ := hends
  have hgetLast := getLast?_append_cons_concat earlier polls
    (.out .download block .empty (.ok count)) final
  -- However the transfers are split, the last poll is the same one.
  constructor
  · rintro ⟨earlier', block', count', polls', last', hsame, -, hconcludes⟩
    intro last state hlast hreport
    rw [hsame, getLast?_append_cons_concat, Option.some.injEq] at hlast
    subst hlast
    rcases hconcludes with ⟨shown, hshown, hshownReport⟩ | ⟨⟨error, rfl⟩, -⟩
    · rw [hshownReport] at hreport
      have hstate : shown = state := congrArg Prod.snd (Option.some.inj hreport)
      rwa [hstate] at hshown
    · simp [Exchange.report?] at hreport
  · intro hlast
    refine ⟨earlier, block, count, polls, final, rfl, hpolls, ?_⟩
    rcases hfinal with ⟨state, -, hreport⟩ | hleft
    · exact .inl ⟨state, hlast final state hgetLast hreport, hreport⟩
    · exact .inr hleft

namespace Session

open Download

variable {session : Session ω} {before after : Moment ω} {deeds : List Event} {start : Nat}

theorem conclusion_eq_ok {reply : StatusReply} (hok : conclusion reply = .ok ()) :
    reply.status = .ok ∧ reply.state ≠ .dfuError := by
  unfold conclusion at hok
  split at hok
  · simp at hok
  · next hstate =>
      unfold StatusReply.require at hok
      split at hok
      · next hstatus => exact ⟨(StatusCode.isOk_iff _).mp hstatus, hstate⟩
      · simp at hok

theorem endsManifestation_of_isManifesting {state : State} (hdone : isManifesting state = false)
    (hstate : state ≠ .dfuError) : state.EndsManifestation := by
  simp only [isManifesting, Bool.or_eq_false_iff, beq_eq_false_iff_ne] at hdone
  exact ⟨hdone.1, hdone.2, hstate⟩

/-- Polls after the empty block that end well end with a conclusive one. -/
theorem Manifesting.concludes
    (hmanifesting : session.Manifesting start before deeds (.ok ()) after) :
    ∃ polls last, exchanges deeds = polls ++ [last] ∧
      last.Concludes State.EndsManifestation session.descriptor.manifestationTolerant := by
  generalize hresult : Except.ok () = result at hmanifesting
  induction hmanifesting with
  | left hasked hleaves =>
      exact ⟨[], _, exchanges_cons_statusDeed .., .inr ⟨⟨_, rfl⟩, hleaves⟩⟩
  | lost => simp at hresult
  | @concluded _ _ bytes _ hasked hdone =>
      obtain ⟨hstatus, hstate⟩ := conclusion_eq_ok hresult.symm
      refine ⟨[], .receive .getStatus 0 6 (.ok bytes), by simp, .inl ?_⟩
      refine ⟨(session.replyTo bytes).state, ?_, ?_⟩
      · exact endsManifestation_of_isManifesting hdone hstate
      · rw [Exchange.report?, session.replyTo_report, hstatus]
  | late => simp at hresult
  | @again _ _ _ _ bytes _ _ _ hasked hwork hnext hinTime hrest ih =>
      obtain ⟨polls, last, hdeeds, hconcludes⟩ := ih hresult
      refine ⟨.receive .getStatus 0 6 (.ok bytes) :: polls, last, ?_, hconcludes⟩
      simp [hdeeds]

theorem Sending.endsCompleted {payload : ByteArray} {chunk position : Nat}
    (hsending : session.Sending payload chunk position before deeds (.ok ()) after) :
    EndsCompleted State.EndsManifestation session.descriptor.manifestationTolerant
      (exchanges deeds) := by
  generalize hresult : Except.ok () = result at hsending
  induction hsending with
  | failed => simp at hresult
  | stored hinside hstoring hrest ih =>
      rw [exchanges_append, exchanges_cons_downloaded]
      exact (ih hresult).append _
  | endUnsent => simp at hresult
  | ended houtside htold hmanifesting =>
      subst hresult
      obtain ⟨polls, last, hdeeds, hconcludes⟩ := hmanifesting.concludes
      have hpolls := hmanifesting.requests
      rw [hdeeds] at hpolls
      rw [exchanges_cons_orderDeed, hdeeds]
      exact ⟨[], _, _, polls, last, rfl, hpolls, hconcludes⟩

/-- A download that succeeds ends with the accepted empty block and polls, the last of which was
answered without error in a state that ends the polls, or not answered by a device that may leave
the bus.  It is confirmed exactly if that state is one of a device that has put its firmware into
effect. -/
theorem downloadPayload_completed_iff (session : Session ω)
    (pace : Pace session.pipe session.deviations) (chunk : UInt16) (payload : ByteArray)
    (before : Moment ω) :
    ∃ deeds result after,
      (session.downloadPayload pace chunk payload).Performs before deeds result after ∧
      (result = .ok () →
        EndsCompleted State.EndsManifestation session.descriptor.manifestationTolerant
          (exchanges deeds) ∧
        (EndsCompleted State.ShowsCompletion session.descriptor.manifestationTolerant
            (exchanges deeds) ↔
          ∀ last state, (exchanges deeds).getLast? = some last →
            last.report? = some (.ok, state) → state.ShowsCompletion)) := by
  by_cases positive : 0 < chunk.toNat
  · obtain ⟨deeds, result, after, hsending, hrun⟩ :=
      session.downloadPayload_performs pace positive payload before
    refine ⟨_, result, after, hrun, ?_⟩
    rintro rfl
    rw [exchanges_cons_downloaded]
    have hends := hsending.endsCompleted
    exact ⟨hends, hends.restrict_iff⟩
  · refine ⟨_, _, _, session.downloadPayload_refused pace positive payload before, ?_⟩
    simp

/-- A device that is still at work on the last block after the empty one passes for complete. -/
theorem downloadPayload_completes_while_busy :
    let run := (Script.session.downloadPayload (Script.pace _) 4 ⟨#[1, 2, 3, 4]⟩).run
      (.reporting [(0, 5), (0, 4)])
    run.1 = .ok () ∧
      ¬ EndsCompleted State.ShowsCompletion Script.session.descriptor.manifestationTolerant
        (exchanges run.2.deeds) := by
  intro run
  have hsending : Script.session.Sending ⟨#[1, 2, 3, 4]⟩ (4 : UInt16).toNat 0
      (Host.reporting [(0, 5), (0, 4)]).moment _ _ _ :=
    .stored (by decide) (.stored rfl (.settled rfl (by decide)) (by decide))
      (.ended (by decide) rfl (.concluded rfl rfl))
  have hruns := (hsending.downloadPayload_performs (Script.pace _) (by decide)).runs
  have hrun : exchanges run.2.deeds =
      [.out .download 0 ⟨#[1, 2, 3, 4]⟩ (.ok 4),
        .receive .getStatus 0 6 (.ok ⟨#[0, 0, 0, 0, 5, 0]⟩),
        .out .download 1 .empty (.ok 0),
        .receive .getStatus 0 6 (.ok ⟨#[0, 0, 0, 0, 4, 0]⟩)] := by
    rw [hruns.last_deeds]
    rfl
  refine ⟨hruns.result_eq, ?_⟩
  rintro ⟨earlier, block, count, polls, last, hsame, -, hconcludes⟩
  have hlast := getLast?_append_cons_concat earlier polls
    (.out .download block .empty (.ok count)) last
  rw [← hsame, hrun] at hlast
  have hfinal : .receive .getStatus 0 6 (.ok ⟨#[0, 0, 0, 0, 4, 0]⟩) = last :=
    Option.some.inj hlast
  subst hfinal
  rcases hconcludes with ⟨state, hshows, hreport⟩ | ⟨⟨error, herror⟩, -⟩
  · have hstate : State.dfuDownloadBusy = state :=
      congrArg Prod.snd (Option.some.inj hreport)
    subst hstate
    rcases hshows with hidle | hwaits
    · contradiction
    · contradiction
  · simp at herror

end Session

end FirmwareUpgrade
