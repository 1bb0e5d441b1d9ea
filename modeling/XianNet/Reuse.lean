import XianNet.Connections
import XianNet.Mailbox

/-!
# Numbers that change hands

An event, the message made from it and the gateway's reads and writes know
their connection by its number only. `wrong_connection` is a number that goes
to another client while a message for the first one waits. Where a number is
not handed out while anything is still on its way to it, everything reaches
the connection it is about (`event_connection`).
-/

namespace XianNet

open Interleaving

variable {σ : Shared} {C : State → Label → Prop} {s : State} {tr : List Label}

-- ---------------------------------------------------------------------------
-- What is on its way
-- ---------------------------------------------------------------------------

def BaseMessage.socketRw (m : BaseMessage) : Option SocketRWMessage :=
  match m.body with
  | .socketRw b => some b
  | _ => none

def GatewayPc.fd : GatewayPc → Int32
  | .read fd _ | .write fd _ => fd

/-- The number and the connection of a report. -/
abbrev Report := Int32 × FileRef

/-- The report a message was made from. -/
def BaseMessage.report (m : BaseMessage) : Option Report :=
  m.socketRw.map fun b => (b.fd, b.cause)

/-- The reports that a frame goes on with. -/
def Frame.reports : Frame → List Report
  | .socket (.dispatch events) => events.map fun e => (e.fd, e.file)
  | .send (.find _ m) | .send (.pushMessage _ m) | .handler _ m => m.report.toList
  | .processSocketRwMessage _ m => [(m.fd, m.cause)]
  | _ => []

/-- The numbers that a frame goes on with: of its reports, or the gateway's. -/
def Frame.numbers : Frame → List Int32
  | .gateway pc => [pc.fd]
  | f => f.reports.map (·.1)

/-- No report for the number is on its way, and the gateway does not act on it. -/
def Unawaited (s : State) (fd : Int32) : Prop :=
  (∀ f ∈ s.frames, fd ∉ f.numbers) ∧ ∀ r < s.shared.allocated,
    ∀ m ∈ (s.shared.services r).messageQueue, m.report.map (·.1) ≠ some fd

instance (s : State) (fd : Int32) : Decidable (Unawaited s fd) :=
  inferInstanceAs (Decidable (_ ∧ _))

/-- No number is handed out that a report is on its way to, and callers of
`SendMessage` do not make up reports. -/
def Settled (s : State) (l : Label) : Prop :=
  (∀ x ∈ l.op.opens, Unawaited s x.1) ∧ l.choice.sent.bind (·.report) = none

instance (s : State) (l : Label) : Decidable (Settled s l) := by
  unfold Settled; infer_instance

-- ---------------------------------------------------------------------------
-- Reports
-- ---------------------------------------------------------------------------

/-- The number is free or still names the connection. -/
def Keeps (k : Kernel) (x : Report) : Prop := ∀ f, k.descriptors x.1 = some f → f = x.2

theorem descriptors_apply {op : Op} (hd : (σ.apply op).kernel.descriptors fd = some f) :
    σ.kernel.descriptors fd = some f ∨ ∃ t, op.opens = some (fd, t) := by
  cases op with
  | openSocket fd' | accept _ fd' _ =>
    rw [descriptors_opened rfl] at hd
    split at hd
    · rename_i heq; exact .inr ⟨_, by rw [heq]; rfl⟩
    · exact .inl hd
  | close fd' =>
    simp only [Shared.apply, Kernel.descriptors_close] at hd
    split at hd
    · cases hd
    · exact .inl hd
  | _ => exact .inl hd

theorem Keeps.apply {op : Op} (h : Keeps σ.kernel x) (hop : ∀ t, op.opens ≠ some (x.1, t)) :
    Keeps (σ.apply op).kernel x := by
  intro f hd
  rcases descriptors_apply hd with hd | ⟨t, ht⟩
  · exact h f hd
  · exact absurd ht (hop t)

theorem Keeps.of_reports (hk : KernelOk k) (h : k.reports e) : Keeps k (e.fd, e.file) := by
  intro f hd
  rw [(hk.of_reports h).1] at hd
  exact (Option.some.inj hd).symm

theorem reports_of_message (hm : Frame.message f = some m) : f.reports = m.report.toList := by
  cases f with
  | send pc => cases pc <;> first | (cases hm; rfl) | cases hm
  | handler => cases hm; rfl
  | _ => cases hm

theorem message_of_report (hx : x ∈ Frame.reports g) :
    (∃ events, g = .socket (.dispatch events)) ∨ (∃ m, g.message = some m ∧ m.report = some x) ∨
      ∃ r m, g = .processSocketRwMessage r m ∧ x = (m.fd, m.cause) := by
  cases g with
  | socket pc =>
    cases pc with
    | epollWait => cases hx
    | dispatch events => exact .inl ⟨events, rfl⟩
  | send pc =>
    cases pc with
    | find target m | pushMessage r m => exact .inr (.inl ⟨m, rfl, Option.mem_toList.mp hx⟩)
    | _ => cases hx
  | handler r m => exact .inr (.inl ⟨m, rfl, Option.mem_toList.mp hx⟩)
  | processSocketRwMessage r m => exact .inr (.inr ⟨r, m, rfl, List.mem_singleton.mp hx⟩)
  | _ => cases hx

/-- A report that a step goes on with was there, or waited in a queue, or comes
from `epoll_wait` or a caller. -/
theorem report_origin (h : Frame.step σ f c = some (op, fs))
    (hkey : ∀ key c, σ.connectionMap.find key = some c → key = c.fd.toUInt32)
    (hg : g ∈ fs) (hx : x ∈ g.reports) :
    x ∈ f.reports ∨ (∃ r, ∃ m ∈ (σ.services r).messageQueue, m.report = some x) ∨
      (∃ e, op.opens = none ∧ σ.kernel.reports e ∧ x = (e.fd, e.file)) ∨
      c.sent.bind (·.report) = some x := by
  rcases message_of_report hx with ⟨events, rfl⟩ | ⟨m, hm, hx⟩ | ⟨r, m, rfl, rfl⟩
  · have hsame := (routine_step h _ hg).2.resolve_right nofun
    cases f with
    | socket pc =>
      cases SocketPc.step_cases h with
      | wait _ hrep =>
        cases List.mem_singleton.mp hg
        obtain ⟨e, he, rfl⟩ := List.mem_map.mp hx
        exact .inr (.inr (.inl ⟨e, rfl, hrep e he, rfl⟩))
      | done => cases List.mem_singleton.mp hg
      | unknown =>
        cases List.mem_singleton.mp hg
        exact .inl (List.mem_cons_of_mem _ hx)
      | event =>
        rcases eventFrames_cases hg with ⟨-, -, heq⟩ | ⟨-, heq⟩ | heq <;> cases heq
        exact .inl (List.mem_cons_of_mem _ hx)
    | _ => cases hsame
  · rcases message_step h hg hm with hm | hm | hmake
    · rw [reports_of_message hm]
      exact .inl (Option.mem_toList.mpr hx)
    · obtain ⟨r, hm⟩ := hm
      exact .inr (.inl ⟨r, m, hm, hx⟩)
    · cases hmake with
      | caller => exact .inr (.inr (.inr hx))
      | send | onAccept => cases hx
      | onRW hc =>
        cases hx
        refine .inl (List.mem_map.mpr ⟨_, List.mem_cons_self, ?_⟩)
        rw [toUInt32_inj (hkey _ _ hc)]
  · obtain rfl := method_origin (b := .socketRw _) h hg
    exact .inl (List.mem_singleton_self _)

structure ReportsOk (σ : Shared) (F : Multiset Frame) : Prop where
  frames : ∀ f ∈ F, ∀ x ∈ f.reports, Keeps σ.kernel x
  queues : ∀ r, ∀ m ∈ (σ.services r).messageQueue, ∀ x ∈ m.report, Keeps σ.kernel x

theorem mem_numbers (hx : x ∈ Frame.reports f) : x.1 ∈ f.numbers := by
  cases f with
  | gateway => cases hx
  | _ => exact List.mem_map_of_mem hx

theorem ReportsOk.step (hi : ReportsOk σ (f ::ₘ R)) (hr : RefsOk σ (f ::ₘ R))
    (hk : KernelOk σ.kernel)
    (hkey : ∀ key c, σ.connectionMap.find key = some c → key = c.fd.toUInt32)
    (h : Frame.step σ f c = some (op, fs))
    (hframes : ∀ g ∈ f ::ₘ R, ∀ fd ∈ g.numbers, ∀ t, op.opens ≠ some (fd, t))
    (hqueues : ∀ r, ∀ m ∈ (σ.services r).messageQueue, ∀ x ∈ m.report,
      ∀ t, op.opens ≠ some (x.1, t))
    (hsent : c.sent.bind (·.report) = none) :
    ReportsOk (σ.apply op) ((fs : Multiset Frame) + R) := by
  have hframe : ∀ g ∈ f ::ₘ R, ∀ x ∈ g.reports, Keeps (σ.apply op).kernel x := fun g hg x hx =>
    (hi.frames g hg x hx).apply (hframes g hg _ (mem_numbers hx))
  have hqueue : ∀ r, ∀ m ∈ (σ.services r).messageQueue, ∀ x ∈ m.report,
      Keeps (σ.apply op).kernel x := fun r m hm x hx =>
    (hi.queues r m hm x hx).apply (hqueues r m hm x hx)
  have hf := hframe f (Multiset.mem_cons_self f R)
  constructor
  · intro g hg x hx
    rcases Multiset.mem_add.mp hg with hg | hg
    · rcases report_origin h hkey hg hx with hx | ⟨r, m, hm, hx⟩ | ⟨e, hop, hrep, rfl⟩ | hx
      · exact hf x hx
      · exact hqueue r m hm x hx
      · exact (Keeps.of_reports hk hrep).apply fun t ht => by rw [hop] at ht; cases ht
      · rw [hsent] at hx; cases hx
    · exact hframe g (Multiset.mem_cons_of_mem hg) x hx
  · intro r m hm x hx
    rcases queue_origin h hr hm with hm | hm
    · exact hqueue r m hm x hx
    · exact hf x (by rw [reports_of_message hm]; exact Option.mem_toList.mpr hx)

theorem Settled.frames (hc : Settled s l) : ∀ g ∈ s.frames, ∀ fd ∈ g.numbers, ∀ t,
    l.op.opens ≠ some (fd, t) :=
  fun g hg _ hfd _ hop => (hc.1 _ hop).1 g hg hfd

theorem Settled.queues (hc : Settled s l) (hr : RefsOk s.shared F) :
    ∀ r, ∀ m ∈ (s.shared.services r).messageQueue, ∀ x ∈ m.report, ∀ t,
      l.op.opens ≠ some (x.1, t) := by
  intro r m hm x hx t hop
  by_cases hlt : r < s.shared.allocated
  · exact (hc.1 _ hop).2 r hlt m hm (by rw [hx]; rfl)
  · rw [hr.fresh r (Nat.not_lt.mp hlt)] at hm
    cases hm

theorem Reach.reportsOk (h : system.Reach Settled (initial n p k) s) :
    ReportsOk s.shared s.frames := by
  refine h.invariant ⟨?_, ?_⟩ ?_
  · intro f hf x hx
    rcases mem_initial_frames hf with ⟨i, -, rfl⟩ | rfl | rfl | rfl <;> cases hx
  · intro r m hm; cases hm
  · intro s l fs R hr hc hF hm hi
    have hrefs := Reach.refsOk hr
    exact hi.step (hF ▸ hrefs) (Reach.kernelOk hr) (Reach.keyed hr) hm (hF ▸ hc.frames)
      (hc.queues hrefs) hc.2

-- ---------------------------------------------------------------------------
-- The gateway
-- ---------------------------------------------------------------------------

/-- The last `ProcessSocketRwMessage` that thread `t` started is for the message `b`. -/
def Handling (tr : List Label) (t : Nat) (b : SocketRWMessage) : Prop :=
  ∃ tr₁ l tr₂ r, tr = tr₁ ++ l :: tr₂ ∧ l.thread = t ∧ l.frame = .processSocketRwMessage r b ∧
    ∀ l' ∈ tr₂, l'.thread = t → l'.frame.routine ≠ .processSocketRwMessage

theorem Handling.append (h : Handling tr t b)
    (hl : l.thread = t → l.frame.routine ≠ .processSocketRwMessage) : Handling (tr ++ [l]) t b := by
  obtain ⟨tr₁, l₀, tr₂, r, rfl, ht, hf, hnone⟩ := h
  refine ⟨tr₁, l₀, tr₂ ++ [l], r, by simp, ht, hf, ?_⟩
  intro l' hl'
  rcases List.mem_append.mp hl' with hl' | hl'
  · exact hnone l' hl'
  · rw [List.mem_singleton.mp hl']; exact hl

theorem Handling.start (ht : l.thread = t) (hf : l.frame = .processSocketRwMessage r b) :
    Handling (tr ++ [l]) t b :=
  ⟨tr, l, [], r, rfl, ht, hf, by simp⟩

theorem socketRwFrames_fd (h : .gateway pc ∈ socketRwFrames b) : pc.fd = b.fd := by
  unfold socketRwFrames at h
  rcases List.mem_append.mp h with h | h <;> split at h
  · rcases List.mem_pair.mp h with h | h <;> rw [Frame.gateway.inj h] <;> rfl
  · cases h
  · rw [Frame.gateway.inj (List.mem_singleton.mp h)]; rfl
  · cases h

/-- The method runs gateway frames only, for the number of its message. -/
theorem processSocketRwMessageFrames_gateway (hg : g ∈ processSocketRwMessageFrames service b) :
    ∃ pc, g = .gateway pc ∧ pc.fd = b.fd := by
  unfold processSocketRwMessageFrames at hg
  split at hg
  · cases hg
  · obtain ⟨pc, rfl⟩ := socketRwFrames_gateway hg
    exact ⟨pc, rfl, socketRwFrames_fd hg⟩

theorem gateway_goes_on (h : Frame.step σ (.gateway pc) c = some (op, fs)) :
    ∀ g ∈ fs, ∃ pc', g = .gateway pc' ∧ pc'.fd = pc.fd := by
  cases GatewayPc.step_cases h with
  | readMore =>
    intro g hg
    exact ⟨_, List.mem_singleton.mp hg, rfl⟩
  | _ => simp

theorem gateway_starts (h : Frame.step σ f c = some (op, fs)) (hf : f.routine ≠ .gateway) :
    (∀ g ∈ fs, g.routine ≠ .gateway) ∨ ∃ r b, f = .processSocketRwMessage r b ∧
      ∀ g ∈ fs, ∃ pc, g = .gateway pc ∧ pc.fd = b.fd := by
  cases f with
  | gateway => exact absurd rfl hf
  | processSocketRwMessage r b =>
    cases h
    exact .inr ⟨r, b, rfl, fun g hg => processSocketRwMessageFrames_gateway hg⟩
  | _ =>
    refine .inl fun g hg hgate => ?_
    have hcall := (routine_step h g hg).1
    rw [hgate] at hcall
    simp [Frame.routine, Routine.calls] at hcall

/-- Nothing but the gateway's own frames is above one. -/
def Stacked (upper lower : Frame) : Prop := lower.routine = .gateway → upper.routine = .gateway

structure GatewayOk (tr : List Label) (σ : Shared) (t : Nat) (stack : List Frame) : Prop where
  above : stack.Pairwise Stacked
  frames : ∀ pc, .gateway pc ∈ stack →
    ∃ b, Handling tr t b ∧ pc.fd = b.fd ∧ Keeps σ.kernel (b.fd, b.cause)

theorem stacked_of_upper (h : upper.routine = .gateway) : Stacked upper lower := fun _ => h

theorem stacked_of_lower (h : lower.routine ≠ .gateway) : Stacked upper lower :=
  fun hl => absurd hl h

theorem GatewayOk.goes_on (hi : GatewayOk tr σ l.thread (.gateway pc :: rest))
    (hf : l.frame = .gateway pc) (hfs : ∀ g ∈ fs, ∃ pc', g = .gateway pc' ∧ pc'.fd = pc.fd)
    (hopens : ∀ g ∈ .gateway pc :: rest, ∀ fd ∈ g.numbers, ∀ t, l.op.opens ≠ some (fd, t)) :
    GatewayOk (tr ++ [l]) (σ.apply l.op) l.thread (fs ++ rest) := by
  have hup : ∀ g ∈ fs, g.routine = .gateway := fun g hg => by
    obtain ⟨pc', rfl, -⟩ := hfs g hg
    rfl
  constructor
  · refine List.pairwise_append.mpr ⟨?_, (List.pairwise_cons.mp hi.above).2, ?_⟩
    · exact List.pairwise_of_forall_mem_list fun g hg _ _ => stacked_of_upper (hup g hg)
    · exact fun g hg _ _ => stacked_of_upper (hup g hg)
  · intro pc₁ hpc₁
    obtain ⟨pc₂, hpc₂, hfd₂⟩ : ∃ pc₂, .gateway pc₂ ∈ .gateway pc :: rest ∧ pc₁.fd = pc₂.fd := by
      rcases List.mem_append.mp hpc₁ with hpc₁ | hpc₁
      · obtain ⟨pc', heq, hfd⟩ := hfs _ hpc₁
        cases heq
        exact ⟨pc, List.mem_cons_self, hfd⟩
      · exact ⟨pc₁, List.mem_cons_of_mem _ hpc₁, rfl⟩
    obtain ⟨b, hb, hfd, hkeep⟩ := hi.frames pc₂ hpc₂
    refine ⟨b, hb.append fun _ => by rw [hf]; nofun, hfd₂.trans hfd, hkeep.apply ?_⟩
    rw [← hfd]
    exact hopens _ hpc₂ _ (List.mem_singleton_self _)

theorem GatewayOk.starts (hi : GatewayOk tr σ l.thread (l.frame :: rest))
    (hr : ReportsOk σ F) (hf : l.frame ∈ F) (hgate : l.frame.routine ≠ .gateway)
    (h : Frame.step σ l.frame l.choice = some (l.op, fs))
    (hopens : ∀ fd ∈ l.frame.numbers, ∀ t, l.op.opens ≠ some (fd, t)) :
    GatewayOk (tr ++ [l]) (σ.apply l.op) l.thread (fs ++ rest) := by
  obtain ⟨hhead, hrest⟩ := List.pairwise_cons.mp hi.above
  have hbelow : ∀ g ∈ rest, g.routine ≠ .gateway := fun g hg hgw => hgate (hhead g hg hgw)
  have hnew := gateway_starts h hgate
  constructor
  · refine List.pairwise_append.mpr ⟨?_, hrest, fun _ _ g hg => stacked_of_lower (hbelow g hg)⟩
    rcases hnew with hnone | ⟨r, b, -, hall⟩
    · exact List.pairwise_of_forall_mem_list fun _ _ g hg => stacked_of_lower (hnone g hg)
    · refine List.pairwise_of_forall_mem_list fun g hg _ _ => stacked_of_upper ?_
      obtain ⟨pc, rfl, -⟩ := hall g hg
      rfl
  · intro pc hpc
    rcases List.mem_append.mp hpc with hpc | hpc
    · rcases hnew with hnone | ⟨r, b, hframe, hall⟩
      · exact absurd rfl (hnone _ hpc)
      · obtain ⟨pc', heq, hfd⟩ := hall _ hpc
        cases heq
        have hx : (b.fd, b.cause) ∈ l.frame.reports := by
          rw [hframe]; exact List.mem_singleton_self _
        exact ⟨b, .start rfl hframe, hfd, (hr.frames _ hf _ hx).apply (hopens _ (mem_numbers hx))⟩
    · exact absurd rfl (hbelow _ hpc)

theorem GatewayOk.other (hi : GatewayOk tr σ t stack) (ht : t ≠ l.thread)
    (hopens : ∀ g ∈ stack, ∀ fd ∈ g.numbers, ∀ t, l.op.opens ≠ some (fd, t)) :
    GatewayOk (tr ++ [l]) (σ.apply l.op) t stack := by
  refine ⟨hi.above, ?_⟩
  intro pc hpc
  obtain ⟨b, hb, hfd, hkeep⟩ := hi.frames pc hpc
  refine ⟨b, hb.append fun hl => absurd hl.symm ht, hfd, hkeep.apply ?_⟩
  rw [← hfd]
  exact hopens _ hpc _ (List.mem_singleton_self _)

theorem Exec.gatewayOk (h : system.Exec Settled (initial n p k) tr s) :
    ∀ t stack, s.threads[t]? = some stack → GatewayOk tr s.shared t stack := by
  refine h.stacks (I := GatewayOk) ?_ ?_ ?_
  · intro t stack ht
    have hnone : ∀ g ∈ stack, g.routine ≠ .gateway := fun g hg => by
      rcases mem_initial_frames (State.mem_frames.mpr ⟨t, stack, ht, hg⟩) with
        ⟨i, -, rfl⟩ | rfl | rfl | rfl <;> nofun
    exact ⟨List.pairwise_of_forall_mem_list fun _ _ g hg => stacked_of_lower (hnone g hg),
      fun pc hpc => absurd rfl (hnone _ hpc)⟩
  · intro tr s l fs rest hr hc htop hm hi
    have hmem : ∀ g ∈ l.frame :: rest, g ∈ s.frames := fun g hg =>
      State.mem_frames.mpr ⟨_, _, htop, hg⟩
    have hself := hmem _ List.mem_cons_self
    by_cases hgate : l.frame.routine = .gateway
    · obtain ⟨pc, hf⟩ : ∃ pc, l.frame = .gateway pc := by
        cases hl : l.frame <;> rw [hl] at hgate <;> first | exact ⟨_, rfl⟩ | cases hgate
      rw [hf] at hi hmem hm
      exact hi.goes_on hf (gateway_goes_on hm) fun g hg => hc.frames g (hmem g hg)
    · exact hi.starts (Reach.reportsOk ⟨tr, hr⟩) hself hgate hm (hc.frames _ hself)
  · intro tr s l s' t stack hr hc hs hne ht hi
    obtain ⟨fs, R, -, -, -, hsh⟩ := hs.frames
    rw [hsh]
    exact hi.other hne fun g hg => hc.frames g (State.mem_frames.mpr ⟨_, _, ht, hg⟩)

/-- The first client's bytes are reported, the message waits, and the gateway is
about to read from number 6. -/
theorem exists_reading (C : State → Label → Prop) [∀ s l, Decidable (C s l)]
    (acts : List (Nat × Choice)) (x : FileRef)
    (h : ((system.record C (initial 1 (fun i => 1 <<< i) 1)
      (creates 3 ++ listens 3 5 0 ++ (2, .connect 0) :: polls 1 5 0 ++ accepts 1 6 [] ++
        steps 1 6 ++ (2, .deliver 1 [104]) :: polls 1 6 1 ++ steps 1 4 ++ acts ++
        steps 0 14)).any fun q => (system.next q.2 0 .go).any (fun q' => C q.2 q'.1 ∧
          q'.1.frame = .processSocketRwMessage 0 ⟨6, true, false, 1⟩ ∧
          (q'.2.threads[0]?.bind (·.head?)) = some (.gateway (.read 6 [])) ∧
          q'.2.shared.kernel.descriptors 6 = some x) = true) = true) :
    ∃ tr s rest b, system.Exec C (initial 1 (fun i => 1 <<< i) 1) tr s ∧
      s.threads[0]? = some (.gateway (.read 6 []) :: rest) ∧ Handling tr 0 b ∧ b.cause = 1 ∧
      s.shared.kernel.descriptors 6 = some x := by
  obtain ⟨tr, s, hs, h⟩ := Machine.exists_of_record h
  obtain ⟨l, s', hstep, hthread, -, hc, hframe, htop, hd⟩ := Machine.exists_of_next h
  obtain ⟨stack, hstack, hhead⟩ := Option.bind_eq_some_iff.mp htop
  obtain ⟨rest, rfl⟩ := List.head?_eq_some_iff.mp hhead
  exact ⟨tr ++ [l], s', rest, _, .step hs hc hstep, hstack, .start hthread hframe, rfl, hd⟩

/-- While the message about the first client waits, the client is closed and its
number goes to the next one: the gateway reads from the wrong connection. -/
theorem wrong_connection : ∃ tr s rest b, system.Exec Any (initial 1 (fun i => 1 <<< i) 1) tr s ∧
    s.threads[0]? = some (.gateway (.read 6 []) :: rest) ∧ Handling tr 0 b ∧ b.cause = 1 ∧
    s.shared.kernel.descriptors 6 = some 2 :=
  exists_reading Any ((3, .closeConnection 6) :: steps 3 3 ++ (2, .connect 0) :: polls 1 5 0 ++
    accepts 1 6 [] ++ steps 1 4) 2 (by decide +kernel)

/-- Where a number is not handed out while something is on its way to it, the
gateway reads from and writes to the connection whose event made the message
that it handles, or none. -/
theorem event_connection (h : system.Exec Settled (initial n p k) tr s)
    (htop : s.threads[t]? = some (.gateway pc :: rest)) :
    ∃ b, Handling tr t b ∧ pc.fd = b.fd ∧
      ∀ x, s.shared.kernel.descriptors pc.fd = some x → x = b.cause := by
  obtain ⟨b, hb, hfd, hkeep⟩ := (Exec.gatewayOk h t _ htop).frames pc List.mem_cons_self
  rw [hfd]
  exact ⟨b, hb, rfl, hkeep⟩

/-- Nobody closes the client. -/
theorem event_connection_open :
    ∃ tr s rest b, system.Exec Settled (initial 1 (fun i => 1 <<< i) 1) tr s ∧
      s.threads[0]? = some (.gateway (.read 6 []) :: rest) ∧ Handling tr 0 b ∧ 1 = b.cause := by
  obtain ⟨tr, s, rest, -, hs, htop, -, -, hd⟩ := exists_reading Settled [] 1 (by decide +kernel)
  obtain ⟨b, hb, -, hcause⟩ := event_connection hs htop
  exact ⟨tr, s, rest, b, hs, htop, hb, hcause 1 hd⟩

end XianNet
