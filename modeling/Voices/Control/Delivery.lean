import Voices.Control.Refines

/-!
# Delivery between a client and its session

What each end has read is the beginning of what the other has sent, in the order it was sent in and
without a repetition, over all queues, tasks and wires. Where nothing has ended and nothing is on
its way, it is all of it.
-/

namespace Voices.Control

open VoiceServer Semantics Client

def Output.sentUp : Output → Option WsProto.ClientEvent
  | .client output => output.sent?
  | _ => none

def Output.sentDown : Output → Option WsProto.ServerEvent
  | .server event => some event
  | _ => none

def Output.readUp : Output → Option WsProto.ClientEvent
  | .serverRead event => some event
  | _ => none

def Output.readDown : Output → Option WsProto.ServerEvent
  | .clientRead event => some event
  | _ => none

/-- Of what was sent in a direction, all that was not read is still in the pipe, unless it is cut. -/
structure Delivers (l : Link) (tr : List Output) : Prop where
  up : ∃ rest, l.up.Holds rest ∧ tr.filterMap Output.readUp ++ rest = tr.filterMap Output.sentUp
  down : ∃ rest, l.down.Holds rest ∧ tr.filterMap Output.readDown ++ rest = tr.filterMap Output.sentDown

section Steps

variable {base64 : TextForm Key} {l l' : Link} {tr o : List Output}

/-- A step that reads and sends nothing in a direction leaves it as it is. -/
theorem delivers_same {α : Type} {p : Pipe α} {read sent : Output → Option α}
    (h : ∃ rest, p.Holds rest ∧ tr.filterMap read ++ rest = tr.filterMap sent)
    (hRead : o.filterMap read = []) (hSent : o.filterMap sent = []) :
    ∃ rest, p.Holds rest ∧ (tr ++ o).filterMap read ++ rest = (tr ++ o).filterMap sent := by
  simpa only [List.filterMap_append, hRead, hSent, List.append_nil] using h

theorem delivers_push {α : Type} {p : Pipe α} {read sent : Output → Option α} {items : List α}
    (h : ∃ rest, p.Holds rest ∧ tr.filterMap read ++ rest = tr.filterMap sent)
    (hRead : o.filterMap read = []) (hSent : o.filterMap sent = items) :
    ∃ rest, (p.push items).Holds rest ∧
      (tr ++ o).filterMap read ++ rest = (tr ++ o).filterMap sent := by
  obtain ⟨rest, hHolds, hEq⟩ := h
  refine ⟨rest ++ items, hHolds.push items, ?_⟩
  rw [List.filterMap_append, List.filterMap_append, hRead, hSent, List.append_nil, ← hEq,
    List.append_assoc]

theorem delivers_pop {α : Type} {p : Pipe α} {read sent : Output → Option α} {item : α} {items : List α}
    (h : ∃ rest, p.Holds rest ∧ tr.filterMap read ++ rest = tr.filterMap sent)
    (hItems : p.items = item :: items) (hRead : o.filterMap read = [item])
    (hSent : o.filterMap sent = []) :
    ∃ rest, ({ p with items } : Pipe α).Holds rest ∧
      (tr ++ o).filterMap read ++ rest = (tr ++ o).filterMap sent := by
  obtain ⟨full, hHolds, hEq⟩ := h
  obtain ⟨rest, rfl, hRest⟩ := hHolds.pop hItems
  refine ⟨rest, hRest, ?_⟩
  rw [List.filterMap_append, List.filterMap_append, hRead, hSent, List.append_nil, ← hEq,
    List.append_assoc, List.singleton_append]

theorem delivers_cut {α : Type} {p : Pipe α} {read sent : Output → Option α}
    (h : ∃ rest, p.Holds rest ∧ tr.filterMap read ++ rest = tr.filterMap sent) (n : Nat) :
    ∃ rest, (p.cut n).Holds rest ∧ tr.filterMap read ++ rest = tr.filterMap sent := by
  obtain ⟨rest, hHolds, hEq⟩ := h
  exact ⟨rest, hHolds.cut n, hEq⟩

section Outputs

variable (out : List ClientOutput) (told : List WsProto.ServerEvent)

@[simp] theorem sentUp_client : (out.map Output.client).filterMap Output.sentUp =
    out.filterMap ClientOutput.sent? := by
  rw [List.filterMap_map]
  rfl

@[simp] theorem sentDown_client : (out.map Output.client).filterMap Output.sentDown = [] := by
  simp [Output.sentDown]

@[simp] theorem readUp_client : (out.map Output.client).filterMap Output.readUp = [] := by
  simp [Output.readUp]

@[simp] theorem readDown_client : (out.map Output.client).filterMap Output.readDown = [] := by
  simp [Output.readDown]

@[simp] theorem sentUp_server : (told.map Output.server).filterMap Output.sentUp = [] := by
  simp [Output.sentUp]

@[simp] theorem sentDown_server : (told.map Output.server).filterMap Output.sentDown = told := by
  rw [List.filterMap_map]
  exact List.filterMap_some

@[simp] theorem readUp_server : (told.map Output.server).filterMap Output.readUp = [] := by
  simp [Output.readUp]

@[simp] theorem readDown_server : (told.map Output.server).filterMap Output.readDown = [] := by
  simp [Output.readDown]

end Outputs

theorem delivers_new (userId : Uuid) (name : String) (channelId : Uuid) :
    Delivers (Link.new userId name channelId) [] :=
  ⟨⟨[], Pipe.Holds.new, rfl⟩, ⟨[], Pipe.Holds.new, rfl⟩⟩

theorem delivers_step {e : Event} (h : Delivers l tr) (hStep : l.step base64 e = some (l', o)) :
    Delivers l' (tr ++ o) := by
  cases e with
  | client e =>
    rw [Link.step, Option.ite_none_left_eq_some] at hStep
    obtain ⟨⟨c', out⟩, _, hEq⟩ := Option.map_eq_some_iff.mp hStep.2
    cases hEq
    exact ⟨delivers_push h.up (readUp_client out) (sentUp_client out),
      delivers_same h.down (readDown_client out) (sentDown_client out)⟩
  | clientNext =>
    simp only [Link.step] at hStep
    split at hStep
    · rename_i event items hItems
      obtain ⟨⟨c', out⟩, _, hEq⟩ := Option.map_eq_some_iff.mp hStep
      cases hEq
      refine ⟨delivers_push h.up ?_ ?_, delivers_pop h.down hItems ?_ ?_⟩
      · exact readUp_client out
      · exact sentUp_client out
      · exact congrArg (event :: ·) (readDown_client out)
      · exact sentDown_client out
    · rw [Option.ite_none_right_eq_some] at hStep
      obtain ⟨⟨c', out⟩, _, hEq⟩ := Option.map_eq_some_iff.mp hStep.2
      cases hEq
      exact ⟨delivers_push h.up (readUp_client out) (sentUp_client out),
        delivers_same h.down (readDown_client out) (sentDown_client out)⟩
  | server e =>
    rw [Link.step, Option.ite_none_left_eq_some] at hStep
    obtain ⟨⟨s', told⟩, _, hEq⟩ := Option.map_eq_some_iff.mp hStep.2
    cases hEq
    exact ⟨delivers_same h.up (readUp_server told) (sentUp_server told),
      delivers_push h.down (readDown_server told) (sentDown_server told)⟩
  | serverNext sessionId =>
    simp only [Link.step] at hStep
    split at hStep
    · rename_i event items hItems
      obtain ⟨⟨s', told⟩, _, hEq⟩ := Option.map_eq_some_iff.mp hStep
      cases hEq
      refine ⟨delivers_pop h.up hItems ?_ ?_, delivers_push h.down ?_ ?_⟩
      · exact congrArg (event :: ·) (readUp_server told)
      · exact sentUp_server told
      · exact readDown_server told
      · exact sentDown_server told
    · rw [Option.ite_none_right_eq_some] at hStep
      obtain ⟨⟨s', told⟩, _, hEq⟩ := Option.map_eq_some_iff.mp hStep.2
      cases hEq
      exact ⟨delivers_same h.up (readUp_server told) (sentUp_server told),
        delivers_push h.down (readDown_server told) (sentDown_server told)⟩
  | receiverGone =>
    cases hStep
    exact ⟨delivers_same h.up rfl rfl, delivers_same h.down rfl rfl⟩
  | cutUp n =>
    cases hStep
    rw [List.append_nil]
    exact ⟨delivers_cut h.up n, h.down⟩
  | cutDown n =>
    cases hStep
    rw [List.append_nil]
    exact ⟨h.up, delivers_cut h.down n⟩

end Steps

/-- Both tasks run, both ends listen, and nothing is on its way. -/
structure Stack.Idle (s : Stack) : Prop where
  clientTask : s.clientTask.result = none ∧ s.clientTask.dropped = false ∧
    s.clientTask.back = [] ∧ s.clientTask.forward = []
  gatewayTask : s.gatewayTask.result = none ∧ s.gatewayTask.dropped = false ∧
    s.gatewayTask.back = [] ∧ s.gatewayTask.forward = []
  wires : s.wireUp = [] ∧ s.wireDown = []

theorem Represents.idle {fs : Forms} {s : Stack} {l : Link} (h : Represents fs s l) (hIdle : s.Idle) :
    l.up = Pipe.new ∧ l.down = Pipe.new := by
  obtain ⟨ups, downs, hUps, hDowns, rfl⟩ := h.wires
  obtain ⟨hResult, hDropped, hBack, hForward⟩ := hIdle.clientTask
  obtain ⟨hResult', hDropped', hBack', hForward'⟩ := hIdle.gatewayTask
  rw [hIdle.wires.1] at hUps
  rw [hIdle.wires.2] at hDowns
  have hNoUps : ups = [] := List.map_eq_nil_iff.mp hUps.symm
  have hNoDowns : downs = [] := List.map_eq_nil_iff.mp hDowns.symm
  subst hNoUps hNoDowns
  simp [Stack.link, pipe, Pipe.new, hResult, hDropped, hBack, hForward, hResult', hDropped', hBack', hForward']

/-- What an end has read is the beginning of what the other has sent, and all of it when both tasks
run and nothing is on its way. -/
theorem stack_delivers_in_order {fs : Forms} {userId channelId : Uuid} {name : String}
    {es : List StackEvent} {s : Stack} {tr : List Output}
    (hRun : Machine.run (Stack.step fs) (Stack.new userId name channelId) es = some (s, tr)) :
    (tr.filterMap Output.readUp <+: tr.filterMap Output.sentUp ∧
      tr.filterMap Output.readDown <+: tr.filterMap Output.sentDown) ∧
    (s.Idle → tr.filterMap Output.readUp = tr.filterMap Output.sentUp ∧
      tr.filterMap Output.readDown = tr.filterMap Output.sentDown) := by
  obtain ⟨links, l, hLinks, hRepresents⟩ := stack_refines_link hRun
  have hDelivers : Delivers l tr := Machine.run_induction (P := Delivers)
    (delivers_new userId name channelId) (fun _ _ _ _ _ h hStep => delivers_step h hStep) hLinks
  obtain ⟨⟨restUp, hUp, hSentUp⟩, ⟨restDown, hDown, hSentDown⟩⟩ := hDelivers
  refine ⟨⟨⟨restUp, hSentUp⟩, ⟨restDown, hSentDown⟩⟩, fun hIdle => ?_⟩
  obtain ⟨hNoUp, hNoDown⟩ := hRepresents.idle hIdle
  have hRestUp : restUp = [] := by simpa [hNoUp, Pipe.new] using (hUp.whole (by rw [hNoUp]; rfl)).symm
  have hRestDown : restDown = [] := by
    simpa [hNoDown, Pipe.new] using (hDown.whole (by rw [hNoDown]; rfl)).symm
  rw [← hSentUp, ← hSentDown, hRestUp, hRestDown, List.append_nil, List.append_nil]
  exact ⟨rfl, rfl⟩

theorem stack_delivers_in_order_of_firstMessages :
    ∃ s tr, Machine.run (Stack.step texts) (Stack.new 1 "a" 7) firstMessages = some (s, tr) ∧
      tr.filterMap Output.readDown = [WsProto.firstInitialized] ∧
      tr.filterMap Output.readDown <+: tr.filterMap Output.sentDown := by
  have hRun : Machine.run (Stack.step texts) (Stack.new 1 "a" 7) firstMessages = some (_, _) := rfl
  exact ⟨_, _, hRun, rfl, (stack_delivers_in_order hRun).1.2⟩

end Voices.Control
