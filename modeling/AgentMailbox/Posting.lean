import AgentMailbox.HouseRuns
import AgentMailbox.Api

/-!
# The ways to the store

A message is stored by a `send` or a `reply`, of the mailbox itself, of the house around
it, or of the machine interface around the house. Whichever way it comes, it is what
`sendIn` makes of one draft.
-/
namespace AgentMailbox

/-- A sending that succeeds stores the record of its draft. -/
theorem step_sends (mb : Mailbox) {op : Operation} {s s' : InMemoryStore} {result : Result}
    (hop : op.minted.isSome = true) (h : op.step mb s = (.ok result, s')) :
    ∃ caller draft stamp obj, result = .message obj ∧
      op.drafted mb s = .ok (some (caller, draft)) ∧
      mb.sendIn s caller draft stamp = .ok obj ∧ s' = s.addObject obj := by
  have hstanding : op.StandingOnly := by
    cases op with
    | installResident => simp [Operation.minted] at hop
    | _ => trivial
  have hchange := step_change_standing mb s hstanding
  rw [h] at hchange
  cases hchange with
  | unchanged _ hsend =>
    obtain ⟨e, he⟩ := hsend hop
    cases he
  | created _ _ _ _ _ hmint => simp [hmint] at hop
  | profiled _ _ _ _ hop' => simp [hop', Operation.minted] at hop
  | sent caller draft stamp obj _ hdraft hobj =>
    exact ⟨caller, draft, stamp, obj, rfl, hdraft, hobj, rfl⟩
  | consumed _ _ _ _ _ hop' => simp [hop', Operation.minted] at hop
  | expired _ _ hop' => simp [hop', Operation.minted] at hop

namespace House

variable {μ : Type} {house : House μ}

/-- What a house answers with, its mailbox has done. -/
theorem step_ok {op : Operation} {s s' : HouseState μ} {result : Result}
    (h : house.step op s = (.ok result, s')) :
    op.step house.mailbox s.store = (.ok result, s'.store) := by
  rcases house.step_refusedOrDone op s with ⟨⟨e, he⟩, _⟩ | ⟨hanswer, hstore⟩
  · rw [h] at he
    cases he
  · rw [h] at hanswer hstore
    exact Prod.ext hanswer.symm hstore.symm

end House

theorem owns_ok {name caller me : String} {wire : Renderer} (h : owns name caller wire = .ok me) :
    me = caller := by
  unfold owns at h
  cases hwanted : wire.nameFrom name with
  | error e => simp [hwanted] at h
  | ok wanted =>
    rw [hwanted, ok_bind] at h
    split_ifs at h
    cases h
    rfl

namespace Api

variable {μ : Type} (api : Api μ)

/-- What a request to an outbox asks of the house. -/
def posted (name : String) (body : Json) (caller : String) (stamp : Stamp) :
    Except Raised Operation := do
  let _ ← owns name caller api.wire
  let raw ← body.asObject
  let activity ← decodeActivity api.msgspec raw
  let note := activity.object
  match api.repliesTo note with
  | some parent => return .reply caller parent note.content note.summary stamp
  | none => return .send caller (← api.draftOf raw note) stamp

/-- The steps a request goes through before it asks anything of the house. -/
theorem posted_ok {name : String} {body : Json} {caller : String} {stamp : Stamp}
    {op : Operation} (h : api.posted name body caller stamp = .ok op) :
    ∃ raw activity, owns name caller api.wire = .ok caller ∧ body.asObject = .ok raw ∧
      decodeActivity api.msgspec raw = .ok activity ∧
      ((∃ parent, api.repliesTo activity.object = some parent ∧
        op = .reply caller parent activity.object.content activity.object.summary stamp) ∨
      ∃ draft, api.repliesTo activity.object = none ∧
        api.draftOf raw activity.object = .ok draft ∧ op = .send caller draft stamp) := by
  unfold posted at h
  obtain ⟨me, howns, h⟩ := bind_eq_ok.mp h
  obtain ⟨raw, hraw, h⟩ := bind_eq_ok.mp h
  obtain ⟨activity, hactivity, h⟩ := bind_eq_ok.mp h
  obtain rfl := owns_ok howns
  refine ⟨raw, activity, howns, hraw, hactivity, ?_⟩
  dsimp only at h
  cases hreply : api.repliesTo activity.object with
  | some parent =>
    rw [hreply] at h
    exact Or.inl ⟨parent, rfl, (Except.ok.inj h).symm⟩
  | none =>
    rw [hreply] at h
    obtain ⟨draft, hdraft, h⟩ := bind_eq_ok.mp h
    exact Or.inr ⟨draft, rfl, hdraft, (Except.ok.inj h).symm⟩

variable {api}

theorem posted_minted {name : String} {body : Json} {caller : String} {stamp : Stamp}
    {op : Operation} (h : api.posted name body caller stamp = .ok op) :
    op.minted = some stamp.id := by
  obtain ⟨raw, activity, _, _, _, ⟨parent, _, rfl⟩ | ⟨draft, _, _, rfl⟩⟩ := api.posted_ok h
  · rfl
  · rfl

/-- What is asked to be sent for a note is what its addresses, fields and document give. -/
theorem draftOf_ok {raw : JsonObject} {note : Note} {draft : Draft}
    (h : api.draftOf raw note = .ok draft) : ∃ recipients copies,
      api.wire.recipients note.to_ = .ok recipients ∧ api.wire.recipients note.cc = .ok copies ∧
      draft =
        { to_ := .many recipients
          body := note.content
          subject := note.summary
          cc := copies
          inReplyTo := api.parentOf note
          document :=
            if unknownProperties raw = ∅ then none else some (unknownProperties raw) } := by
  unfold draftOf at h
  obtain ⟨recipients, hto, h⟩ := bind_eq_ok.mp h
  obtain ⟨copies, hcc, h⟩ := bind_eq_ok.mp h
  exact ⟨recipients, copies, hto, hcc, (Except.ok.inj h).symm⟩

theorem draftOf_document {raw : JsonObject} {note : Note} {draft : Draft}
    (h : api.draftOf raw note = .ok draft) : draft.document.getD ∅ = unknownProperties raw := by
  obtain ⟨recipients, copies, _, _, rfl⟩ := draftOf_ok h
  dsimp only
  split_ifs with hempty
  · exact hempty.symm
  · rfl

/-- It brings the audience along that was posted. -/
theorem draftOf_audience {raw : JsonObject} {note : Note} {draft : Draft}
    (h : api.draftOf raw note = .ok draft) :
    (draft.document.getD ∅).lookup "audience" = postedAudience raw := by
  rw [draftOf_document h, lookup_unknownProperties]

/-- The draft that is sent for a request to an outbox: of a bare reply an answer to the message it
names, else what the note asks to be sent. -/
theorem posted_drafted {name : String} {body : Json} {caller : String} {stamp : Stamp}
    {op : Operation} {s : InMemoryStore} {sender : String} {draft : Draft}
    (hposted : api.posted name body caller stamp = .ok op)
    (hdraft : op.drafted api.house.mailbox s = .ok (some (sender, draft))) :
    ∃ raw activity, body.asObject = .ok raw ∧ decodeActivity api.msgspec raw = .ok activity ∧
      sender = caller ∧ match api.repliesTo activity.object with
        | none => op = .send caller draft stamp ∧ api.draftOf raw activity.object = .ok draft
        | some parent =>
          op = .reply caller parent activity.object.content activity.object.summary stamp ∧
            ∃ original, api.house.mailbox.visibleIn s caller parent = .ok original ∧
              draft = api.house.mailbox.replyDraft original activity.object.content
                activity.object.summary := by
  obtain ⟨raw, activity, _, hraw, hactivity, hcases⟩ := api.posted_ok hposted
  refine ⟨raw, activity, hraw, hactivity, ?_⟩
  rcases hcases with ⟨parent, hreply, rfl⟩ | ⟨draft', hreply, hdraft', rfl⟩
  · rw [hreply]
    obtain ⟨original, hvisible, hdraft⟩ := map_eq_ok.mp hdraft
    cases hdraft
    exact ⟨rfl, rfl, original, hvisible, rfl⟩
  · rw [hreply]
    rw [Operation.drafted, Except.ok.injEq, Option.some.injEq, Prod.mk.injEq] at hdraft
    obtain ⟨rfl, rfl⟩ := hdraft
    exact ⟨rfl, rfl, hdraft'⟩

/-- A request to an outbox is one operation of the house, and the rendering of its answer. -/
theorem outbox_eq {name : String} {body : Json} {caller : String} {stamp : Stamp} {op : Operation}
    (h : api.posted name body caller stamp = .ok op) : ∃ p : HouseProgram μ ObjectRecord,
      api.house.program op = Result.message <$> p ∧
      api.outbox name body caller stamp = p >>= fun sent => .ofExcept (api.wire.note sent) := by
  obtain ⟨raw, activity, howns, hraw, hactivity, hcase⟩ := api.posted_ok h
  unfold outbox
  simp only [howns, hraw, hactivity, Program.ofExcept_ok_bind]
  rcases hcase with ⟨parent, hreply, rfl⟩ | ⟨draft, hreply, hdraft, rfl⟩
  · exact ⟨_, rfl, by rw [hreply]⟩
  · exact ⟨_, rfl, by simp only [hreply, hdraft, Program.ofExcept_ok_bind]⟩

/-- A request that asks nothing of the house raises. -/
theorem outbox_refused {name : String} {body : Json} {caller : String} {stamp : Stamp} {e : Raised}
    (h : api.posted name body caller stamp = .error e) :
    api.outbox name body caller stamp = throw e := by
  unfold posted at h
  unfold outbox
  rcases bind_eq_error.mp h with howns | ⟨me, howns, h⟩
  · rw [howns, Program.ofExcept_error_bind]
  rw [howns, Program.ofExcept_ok_bind]
  rcases bind_eq_error.mp h with hraw | ⟨raw, hraw, h⟩
  · rw [hraw, Program.ofExcept_error_bind]
  rw [hraw, Program.ofExcept_ok_bind]
  rcases bind_eq_error.mp h with hactivity | ⟨activity, hactivity, h⟩
  · rw [hactivity, Program.ofExcept_error_bind]
  rw [hactivity, Program.ofExcept_ok_bind]
  dsimp only at h ⊢
  cases hreply : api.repliesTo activity.object with
  | some parent =>
    rw [hreply] at h
    cases h
  | none =>
    rw [hreply] at h
    rcases bind_eq_error.mp h with hdraft | ⟨draft, _, h⟩
    · rw [hdraft, Program.ofExcept_error_bind]
    · cases h

/-- What a request to an outbox leaves behind, and what a successful one has done. -/
theorem serve_outbox {name : String} {body : Json} {caller : String} {stamp : Stamp}
    {op : Operation} (h : api.posted name body caller stamp = .ok op) (s : HouseState μ) :
    (api.serve (.outbox name body caller stamp) s).2 = (api.house.step op s).2 ∧
      ∀ response, (api.serve (.outbox name body caller stamp) s).1 = .ok response →
        ∃ obj note, (api.house.step op s).1 = .ok (.message obj) ∧
          api.wire.note obj = .ok note ∧ response = .note note := by
  obtain ⟨p, hprogram, houtbox⟩ := outbox_eq h
  have hserve : api.serve (.outbox name body caller stamp) s =
      (((p.run House.handle s).1 >>= api.wire.note).map .note, (p.run House.handle s).2) := by
    rw [serve, program, houtbox, House.run_map, Program.run_bind]
    rcases p.run House.handle s with ⟨_ | obj, s'⟩
    · rfl
    · rw [ok_bind]
      dsimp only
      rw [Program.run_ofExcept]
  have hstep : api.house.step op s =
      ((p.run House.handle s).1.map .message, (p.run House.handle s).2) := by
    rw [House.step, hprogram, House.run_map]
  rw [hserve, hstep]
  refine ⟨rfl, fun response hresponse => ?_⟩
  obtain ⟨note, hanswer, rfl⟩ := map_eq_ok.mp hresponse
  obtain ⟨obj, hobj, hnote⟩ := bind_eq_ok.mp hanswer
  exact ⟨obj, note, map_eq_ok.mpr ⟨obj, hobj, rfl⟩, hnote, rfl⟩

theorem serve_outbox_refused {name : String} {body : Json} {caller : String} {stamp : Stamp}
    {e : Raised} (h : api.posted name body caller stamp = .error e) (s : HouseState μ) :
    api.serve (.outbox name body caller stamp) s = (.error e, s) := by
  rw [serve, program, outbox_refused h]
  rfl

end Api

end AgentMailbox
