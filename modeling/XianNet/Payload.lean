import Mathlib.Data.List.TakeWhile
import XianNet.Mailbox

/-!
# What `XianNet.send` delivers

From the script call to the handler: the callback makes the message, the
mailbox keeps it in its place, the tag selects the handler, and that one reads
the fields. The callback never fills `content_`, so nothing but the empty
string arrives, and `ToString` cuts a name at its first U+0000.
-/

namespace XianNet

open Interleaving

variable {σ : Shared} {s : State} {tr : List Label}

/-- In the run, a script calls `send(target, functionName, content)`, and the
push of the call, the second step of its thread after the call, is number `i`
in the queue of `r`. -/
def Enqueues (tr : List Label) (target : UInt32) (functionName content : String) (r : ServiceRef)
    (i : Nat) : Prop :=
  ∃ tr₁ l tr₂ l' tr₃, tr = tr₁ ++ l :: (tr₂ ++ l' :: tr₃) ∧
    (∃ r' phase, l.frame = .script r' phase) ∧ l.choice = .jsSend target functionName content ∧
    tr₂.countP (·.thread = l.thread) = 1 ∧ l'.thread = l.thread ∧ (∃ m, l'.op = .pushMessage r m) ∧
    (pushedTo r (tr₁ ++ l :: tr₂)).length = i

/-- The handler of `m` on `r` runs `ExecuteJsFunction` with these arguments,
whatever others do in between. -/
def Runs (σ : Shared) (r : ServiceRef) (m : BaseMessage) (functionName content : String) : Prop :=
  ∃ f, (∀ c, Frame.step σ (.handler r m) c = some (.silent, [f])) ∧
    ∀ σ' c, (σ'.services r).cls = (σ.services r).cls → Frame.step σ' f c =
      some (.silent, [.executeJsFunction r functionName content .handler])

theorem ScriptService.toString_eq_iff :
    ScriptService.toString value = value ↔ ∀ x ∈ value.toList, x.toNat ≠ 0 := by
  unfold ScriptService.toString
  constructor
  · intro h x hx
    rw [← h, String.toList_ofList] at hx
    simpa using List.mem_takeWhile_imp hx
  · intro h
    rw [List.takeWhile_eq_self_iff.mpr fun x hx => by simpa using h x hx, String.ofList_toList]

theorem pushedTo_ne_nil {op : Op} (h : op.pushedTo r ≠ []) : ∃ m, op = .pushMessage r m := by
  cases op with
  | pushMessage r' m =>
    by_cases hr : r' = r
    · exact ⟨m, by rw [hr]⟩
    · simp [Op.pushedTo, hr] at h
  | _ => exact absurd rfl h

theorem jsSend_step (h : Frame.step σ f (.jsSend target functionName content) = some (op, fs))
    (hf : f = .script r phase) :
    fs = [.send (.find target (scriptMessage (σ.services r) (ScriptService.toString functionName))),
      .script r phase] := by
  subst hf
  cases h
  rfl

theorem find_send_step (c : Choice)
    (h : Frame.step σ (.send (.find target m)) c = some (op, fs)) :
    fs = [] ∨ ∃ r, fs = [.send (.pushMessage r m)] := by
  cases Frame.step_inv h with
  | send hs =>
    cases hs with
    | unknown => exact .inl rfl
    | found => exact .inr ⟨_, rfl⟩
  | service hs => cases hs

/-- The call pushes the message that the callback made. -/
theorem Enqueues.pushed (h : Enqueues tr target functionName content r i)
    (hrun : system.Exec Any (initial n p k) tr s) :
    ∃ sender, (pushedTo r tr)[i]? =
      some (scriptMessage sender (ScriptService.toString functionName)) := by
  obtain ⟨tr₁, l, tr₂, l', tr₃, rfl, hscript, hchoice, hone, hthread, ⟨m, hop⟩, rfl⟩ := h
  obtain ⟨r', phase, hframe⟩ := hscript
  obtain ⟨s₁, -, hrun⟩ := hrun.split
  obtain ⟨s₂, -, hcall, hrun⟩ := hrun.cons
  obtain ⟨s₃, hmid, hrun⟩ := hrun.split
  obtain ⟨s₄, -, hpush, -⟩ := hrun.cons
  -- the call leaves a `SendMessage` on top of its thread
  obtain ⟨rest, fs, -, hm, htop, -⟩ := hcall.moves
  rw [hchoice] at hm
  rw [jsSend_step hm hframe] at htop
  obtain ⟨s', l'', fs', -, -, hfind, htop⟩ := hmid.once hone htop
  obtain ⟨rest', fs'', htop', hm', -, -⟩ := hpush.moves
  rw [hop] at hm'
  rw [hthread, (pushMessage_op hm').1] at htop'
  refine ⟨s₁.shared.services r', ?_⟩
  have hmsg : m = scriptMessage (s₁.shared.services r') (ScriptService.toString functionName) := by
    rcases find_send_step l''.choice hfind with rfl | ⟨r'', rfl⟩ <;> rw [htop] at htop' <;>
      cases htop'
    rfl
  rw [← hmsg, ← List.cons_append, ← List.append_assoc]
  simp [pushedTo, hop, Op.pushedTo]

/-- What the target runs for the dequeued message of the call. -/
theorem Enqueues.runs_iff (h : Enqueues tr target functionName content r i)
    (hrun : system.Exec Any (initial n p k) tr s) (hcls : (s.shared.services r).cls = .script)
    (hpop : (poppedFrom r tr)[i]? = some m) :
    Runs s.shared r m name arg ↔ ScriptService.toString functionName = name ∧ arg = "" := by
  obtain ⟨sender, hpush⟩ := h.pushed hrun
  have hmsg : m = scriptMessage sender (ScriptService.toString functionName) := by
    rw [mailbox_fifo hrun r, List.getElem?_append_left (List.getElem?_eq_some_iff.mp hpop).1, hpop]
      at hpush
    exact Option.some.inj hpush
  subst hmsg
  obtain ⟨name, hname⟩ : ∃ name, name = ScriptService.toString functionName := ⟨_, rfl⟩
  rw [← hname]
  have hdispatch : ∀ c, Frame.step s.shared (.handler r (scriptMessage sender name)) c =
      some (.silent, [.processServiceMessage r ⟨sender.serviceIdGlobal, name, ""⟩]) :=
    fun _ => rfl
  have hmethod : ∀ σ' c, (σ'.services r).cls = .script →
      Frame.step σ' (.processServiceMessage r ⟨sender.serviceIdGlobal, name, ""⟩) c =
        some (.silent, [.executeJsFunction r name "" .handler]) := by
    intro σ' c hcls'
    simp only [Frame.step, processServiceMessageFrames, hcls']
  constructor
  · rintro ⟨f, hf, hruns⟩
    cases (hf .go).symm.trans (hdispatch .go)
    cases (hruns s.shared .go rfl).symm.trans (hmethod s.shared .go hcls)
    exact ⟨rfl, rfl⟩
  · rintro ⟨rfl, rfl⟩
    exact ⟨_, hdispatch, fun σ' c hcls' => hmethod σ' c (hcls'.trans hcls)⟩

/-- The first five steps create a script service, whose `OnInit` then sends to
itself; the worker dequeues the message. -/
theorem delivered (functionName content : String)
    (h : ((system.record Any (initial 1 (fun i => 1 <<< i) 1)
        ((3, .newScriptService "main" 0) :: (3, .jsExports ["OnInit"]) :: steps 3 3)).any fun r₁ =>
      (system.next r₁.2 3 (.jsSend 0 functionName content)).any (fun r₂ =>
        r₂.1.frame = .script 0 .onInit ∧ (system.record Any r₂.2 (steps 3 1)).any (fun r₃ =>
          r₃.1.countP (·.thread = 3) = 1 ∧ (system.next r₃.2 3 .go).any (fun r₄ =>
            r₄.1.op.pushedTo 0 ≠ [] ∧
            (system.record Any r₄.2 (steps 3 2 ++ steps 0 3)).any (fun r₅ =>
              r₅.2.shared.serviceMap.find 0 = some 0 ∧ (r₅.2.shared.services 0).cls = .script ∧
              pushedTo 0 (r₁.1 ++ r₂.1 :: r₃.1) = [] ∧
              (r₅.2.shared.services 0).messageQueue = []) = true) = true) = true) = true) = true) :
    ∃ tr s m, system.Exec Any (initial 1 (fun i => 1 <<< i) 1) tr s ∧
      s.shared.serviceMap.find 0 = some 0 ∧ (s.shared.services 0).cls = .script ∧
      Enqueues tr 0 functionName content 0 0 ∧ (poppedFrom 0 tr)[0]? = some m := by
  obtain ⟨tr₁, s₁, h₁, h⟩ := Machine.exists_of_record h
  obtain ⟨l, s₂, hcall, ht, hc, hframe, h⟩ := Machine.exists_of_next h
  obtain ⟨tr₂, s₃, h₂, hone, h⟩ := Machine.exists_of_record h
  obtain ⟨l', s₄, hpush, ht', -, hop, h⟩ := Machine.exists_of_next h
  obtain ⟨tr₃, s, h₃, hfind, hcls, hnone, hq⟩ := Machine.exists_of_record h
  have hrun : system.Exec Any (initial 1 (fun i => 1 <<< i) 1) (tr₁ ++ l :: (tr₂ ++ l' :: tr₃)) s :=
    h₁.trans ((Machine.Exec.single trivial hcall).trans
      (h₂.trans ((Machine.Exec.single trivial hpush).trans h₃)))
  have hcalls : Enqueues (tr₁ ++ l :: (tr₂ ++ l' :: tr₃)) 0 functionName content 0 0 :=
    ⟨tr₁, l, tr₂, l', tr₃, rfl, ⟨0, .onInit, hframe⟩, hc, by rw [ht]; exact hone, by rw [ht', ht],
      pushedTo_ne_nil hop, by rw [hnone]; rfl⟩
  obtain ⟨sender, hpushed⟩ := hcalls.pushed hrun
  rw [mailbox_fifo hrun 0, hq, List.append_nil] at hpushed
  exact ⟨_, s, _, hrun, hfind, hcls, hcalls, hpushed⟩

/-- `send(0, "f", "x")` does not make service 0 run `f` with the content. -/
theorem payload_lost : ∃ tr s m, system.Exec Any (initial 1 (fun i => 1 <<< i) 1) tr s ∧
    s.shared.serviceMap.find 0 = some 0 ∧ (s.shared.services 0).cls = .script ∧
    Enqueues tr 0 "f" "x" 0 0 ∧ (poppedFrom 0 tr)[0]? = some m ∧ ¬ Runs s.shared 0 m "f" "x" := by
  obtain ⟨tr, s, m, hrun, hfind, hcls, hcall, hpop⟩ := delivered "f" "x" (by decide +kernel)
  refine ⟨tr, s, m, hrun, hfind, hcls, hcall, hpop, ?_⟩
  rw [hcall.runs_iff hrun hcls hpop]
  decide

/-- What the dequeued message of a script call makes the target run is what
the call said if and only if the content is empty and no U+0000 cuts the name. -/
theorem payload_iff (h : system.Exec Any (initial n p k) tr s)
    (hcls : (s.shared.services r).cls = .script)
    (hcall : Enqueues tr target functionName content r i) (hpop : (poppedFrom r tr)[i]? = some m) :
    Runs s.shared r m functionName content ↔
      content = "" ∧ ∀ x ∈ functionName.toList, x.toNat ≠ 0 := by
  rw [hcall.runs_iff h hcls hpop, ScriptService.toString_eq_iff]
  exact and_comm

/-- A call without content arrives. -/
theorem payload_iff_empty : ∃ tr s m, system.Exec Any (initial 1 (fun i => 1 <<< i) 1) tr s ∧
    Enqueues tr 0 "f" "" 0 0 ∧ (poppedFrom 0 tr)[0]? = some m ∧ Runs s.shared 0 m "f" "" := by
  obtain ⟨tr, s, m, hrun, -, hcls, hcall, hpop⟩ := delivered "f" "" (by decide +kernel)
  exact ⟨tr, s, m, hrun, hcall, hpop, (payload_iff hrun hcls hcall hpop).mpr ⟨rfl, by simp⟩⟩

end XianNet
