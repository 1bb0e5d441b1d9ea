import XianNet.Batch
import XianNet.Interleaving.Simulation
import XianNet.Native

/-!
# The program

`main` runs `Init` and then waits for ever: a script service for the configured
file, the gateway service, and one call of `Listen`. The threads of the
constructor run beside it. With the main thread as the one caller this is the
system, and no run of it leaves the program (`Exec.toSystem`), so what is true
of every contained run is true of the program as it is.
-/

namespace XianNet

open Interleaving

/-- The entries of `Config` that the threads and `Init` read. -/
structure Config where
  startFile : String
  threadSize : Int32
  port : Int32

/-- The main thread, before the next call that `Init` makes. `wait` is `Wait`:
the worker that it joins does not return. -/
inductive MainPc
  | newScriptService
  | newGatewayService
  | listen (gateway : ServiceRef)
  | wait
  deriving DecidableEq, Repr

inductive ServerFrame
  | main (pc : MainPc)
  | frame (f : Frame)
  deriving DecidableEq, Repr

def ServerFrame.toFrame : ServerFrame → Frame
  | .main _ => .caller
  | .frame f => f

/-- `Init`. The choice is the call, with the id of the new object before it is
assigned; `NewService` returns the id of the gateway. -/
def MainPc.step (cfg : Config) (σ : Shared) (pc : MainPc) (c : Choice) :
    Option (Op × List ServerFrame) :=
  match pc, c with
  | .newScriptService, .newScriptService name uninitialized =>
    if name = cfg.startFile then
      some (.newService (newScript name uninitialized),
        (newScriptServiceFrames σ.allocated).map .frame ++ [.main .newGatewayService])
    else none
  | .newGatewayService, .newGatewayService name uninitialized =>
    if name = "gateway" then
      some (.newService (newGateway name uninitialized),
        (newServiceFrames σ.allocated).map .frame ++ [.main (.listen σ.allocated)])
    else none
  | .listen gateway, .listen port serviceId =>
    if port = cfg.port.toUInt32 ∧ serviceId = (σ.services gateway).id then
      some (.silent, [.frame (.listen (.socket port serviceId)), .main .wait])
    else none
  | _, _ => none

/-- There are no other callers, and no call that the program does not make. -/
def ServerFrame.step (cfg : Config) (σ : Shared) (f : ServerFrame) (c : Choice) :
    Option (Op × List ServerFrame) :=
  match f with
  | .main pc => pc.step cfg σ c
  | .frame .caller => none
  | .frame f =>
    if c.isForeign then none else (Frame.step σ f c).map fun r => (r.1, r.2.map .frame)

def server (cfg : Config) : Machine Shared ServerFrame Choice Op :=
  ⟨ServerFrame.step cfg, Shared.apply⟩

abbrev ServerState := Interleaving.State Shared ServerFrame
abbrev ServerLabel := Interleaving.Label ServerFrame Choice Op

/-- The constructor has created the threads, and `main` is about to call `Init`;
`none` where `StartServiceWorker` shifts out of range. -/
def Config.initial (cfg : Config) : Option ServerState :=
  (serviceWorkers cfg.threadSize).map fun workers =>
    { shared := Shared.initial cfg.threadSize.toInt.toNat
      threads := workers.map (fun w => [.frame (.worker w .popFront)]) ++
        [[.frame (.socket .epollWait)], [.frame .network], [.main .newScriptService]] }

/-- The workers of the configuration. -/
def Config.threads (cfg : Config) : Nat := cfg.threadSize.toInt.toNat

def Config.processingNum (_ : Config) (i : Nat) : Int :=
  ((XianNet.processingNum (Int32.ofNat i)).map (·.toInt)).getD 0

/-- The run of the system that a run of the program is. -/
abbrev toSystem (tr : List ServerLabel) : List Label := tr.map (·.map ServerFrame.toFrame)

abbrev ServerState.toSystem (s : ServerState) : State := s.map ServerFrame.toFrame

variable {cfg : Config} {σ : Shared} {s₀ s : ServerState} {tr : List ServerLabel}

-- ---------------------------------------------------------------------------
-- The program is the system
-- ---------------------------------------------------------------------------

theorem toFrame_map (fs : List Frame) :
    (fs.map ServerFrame.frame).map ServerFrame.toFrame = fs := by
  induction fs with
  | nil => rfl
  | cons f fs ih => rw [List.map_cons, List.map_cons, ih]; rfl

/-- What `main` does next. -/
inductive MainStep (cfg : Config) (σ : Shared) : MainPc → Choice → Op → List ServerFrame → Prop
  | newScriptService : MainStep cfg σ .newScriptService
      (.newScriptService cfg.startFile uninitialized)
      (.newService (newScript cfg.startFile uninitialized))
      ((newScriptServiceFrames σ.allocated).map .frame ++ [.main .newGatewayService])
  | newGatewayService : MainStep cfg σ .newGatewayService
      (.newGatewayService "gateway" uninitialized) (.newService (newGateway "gateway" uninitialized))
      ((newServiceFrames σ.allocated).map .frame ++ [.main (.listen σ.allocated)])
  | listen : MainStep cfg σ (.listen gateway)
      (.listen cfg.port.toUInt32 (σ.services gateway).id) .silent
      [.frame (.listen (.socket cfg.port.toUInt32 (σ.services gateway).id)), .main .wait]

theorem MainPc.step_cases {pc : MainPc} (h : pc.step cfg σ c = some (op, fs)) :
    MainStep cfg σ pc c op fs := by
  unfold MainPc.step at h
  split at h
  · split at h
    · rename_i hname; cases h; subst hname; exact .newScriptService
    · cases h
  · split at h
    · rename_i hname; cases h; subst hname; exact .newGatewayService
    · cases h
  · split at h
    · rename_i hargs
      obtain ⟨rfl, rfl⟩ := hargs
      cases h
      exact .listen
    · cases h
  · cases h

/-- A step of the main thread is a call of the public interface. -/
theorem MainStep.calls {pc : MainPc} (h : MainStep cfg σ pc c op fs) :
    c.isForeign = false ∧ callerStep σ c = some (op, fs.map ServerFrame.toFrame) := by
  cases h with
  | newScriptService | newGatewayService =>
    refine ⟨rfl, ?_⟩
    rw [List.map_append, toFrame_map]
    rfl
  | listen => exact ⟨rfl, rfl⟩

theorem server_step (h : ServerFrame.step cfg σ f c = some (op, fs)) :
    c.isForeign = false ∧ Frame.step σ f.toFrame c = some (op, fs.map ServerFrame.toFrame) := by
  cases f with
  | main pc => exact (MainPc.step_cases h).calls
  | frame f =>
    unfold ServerFrame.step at h
    split at h
    · rename_i heq; cases heq
    · cases h
    · rename_i heq
      cases heq
      split at h
      · cases h
      · rename_i hc
        obtain ⟨⟨op', fs'⟩, hstep, heq⟩ := Option.map_eq_some_iff.mp h
        cases heq
        refine ⟨Bool.eq_false_iff.mpr hc, ?_⟩
        rw [toFrame_map]
        exact hstep

theorem server_translates (cfg : Config) : (server cfg).Translates system ServerFrame.toFrame :=
  ⟨rfl, fun _ _ _ _ _ h => (server_step h).2⟩

theorem mapM_eq_map {f : ι → Option α} {xs : List ι} (h : xs.mapM f = some ys) (d : ι → α) :
    ys = xs.map fun x => (f x).getD (d x) := by
  induction xs generalizing ys with
  | nil => cases h; rfl
  | cons x xs ih =>
    rw [List.mapM_cons] at h
    obtain ⟨y, hy, hrest⟩ := Option.bind_eq_some_iff.mp h
    obtain ⟨ys', hys, heq⟩ := Option.bind_eq_some_iff.mp hrest
    cases heq
    rw [List.map_cons, hy, Option.getD_some, ← ih hys]

theorem Config.initial_toSystem (h : cfg.initial = some s₀) :
    s₀.toSystem = XianNet.initial cfg.threads cfg.processingNum 1 := by
  obtain ⟨workers, hworkers, rfl⟩ := Option.map_eq_some_iff.mp h
  have heq : workers = (List.range cfg.threads).map fun i => ⟨i, cfg.processingNum i⟩ := by
    rw [mapM_eq_map hworkers fun i => ⟨i, 0⟩]
    refine List.map_congr_left fun i _ => ?_
    rw [Config.processingNum]
    cases XianNet.processingNum (Int32.ofNat i) <;> rfl
  rw [heq]
  simp [ServerState.toSystem, State.map, XianNet.initial, startServiceWorker, ServerFrame.toFrame,
    Config.threads]

theorem Exec.ofServer (h0 : cfg.initial = some s₀) (h : (server cfg).Exec C s₀ tr s) :
    system.Exec Contained (XianNet.initial cfg.threads cfg.processingNum 1) (toSystem tr)
      s.toSystem := by
  have hrun : system.Exec Native s₀.toSystem (toSystem tr) s.toSystem := by
    refine h.map (server_translates cfg) fun s₁ l s₂ _ hs => ?_
    obtain ⟨rest, fs, -, hstep, -⟩ := Machine.Step.eq hs
    exact (server_step hstep).1
  rw [Config.initial_toSystem h0] at hrun
  exact Exec.contained hrun

-- ---------------------------------------------------------------------------
-- The program only grows
-- ---------------------------------------------------------------------------

theorem existing_origin {op : Op} (h : ((σ.apply op).services r).isExisting = true) :
    (σ.services r).isExisting = true ∨ op = .setExisting r ∨
      ∃ service, op = .newService service ∧ service.isExisting = true := by
  cases op with
  | newService service =>
    by_cases hr : r = σ.allocated
    · subst hr
      exact .inr (.inr ⟨service, rfl, by simpa [Shared.apply] using h⟩)
    · exact .inl (by simpa [Shared.apply, hr] using h)
  | setExisting r' =>
    by_cases hr : r = r'
    · exact .inr (.inl (by rw [hr]))
    · exact .inl (by simpa [Shared.apply, services_updateService, hr] using h)
  | pushMessage | popMessage | raiseFlag | clearFlag | setFunctions | setServiceId =>
    simp only [Shared.apply, services_updateService] at h
    split at h
    · rename_i hr; exact .inl (by rw [hr]; exact h)
    · exact .inl h
  | addService =>
    simp only [Shared.apply, Shared.addService, services_updateService] at h
    split at h
    · rename_i hr; exact .inl (by rw [hr]; exact h)
    · exact .inl h
  | _ => exact .inl h

theorem Exec.not_existing (h : system.Exec Contained (XianNet.initial n p k) tr' s') :
    ∀ r, (s'.shared.services r).isExisting = false := by
  refine h.invariant (I := fun _ σ _ => ∀ r, (σ.services r).isExisting = false) (fun _ => rfl) ?_
  intro tr s l fs R _ hc _ hm hi r
  refine Bool.eq_false_iff.mpr fun he => ?_
  rcases existing_origin he with he | hop | ⟨service, hop, he⟩
  · rw [hi r] at he
    cases he
  · have hforeign := hc.ops
    rw [hop] at hforeign
    cases hforeign
  · rw [hop] at hm
    rcases newService_op hm with ⟨name, u, rfl, -⟩ | ⟨name, u, rfl, -⟩ <;> cases he

theorem Exec.not_issued (h : system.Exec Contained (XianNet.initial n p k) tr' s') :
    ∀ l ∈ tr', issued l ≠ some x := by
  intro l hl hissued
  have hforeign := Exec.ops_native (h.mono fun _ _ hc => hc.native) l hl
  unfold issued at hissued
  split at hissued
  · rename_i hop
    rw [hop] at hforeign
    cases hforeign
  · cases hissued

/-- Every run of the program is a run of the system with one caller. No service
is ever marked as exiting, a number that `socket` or `accept` returned stays
open for what it was opened for, and no number is returned twice. -/
theorem server_grows (h0 : cfg.initial = some s₀) (h : (server cfg).Exec Any s₀ tr s) :
    system.Exec Any (XianNet.initial cfg.threads cfg.processingNum 1) (toSystem tr) s.toSystem ∧
      (∀ r, (s.shared.services r).isExisting = false) ∧
      (∀ l ∈ tr, ∀ fd t, l.op.opens = some (fd, t) → s.shared.OpenAs fd t) ∧
      tr.Pairwise fun l l' => ∀ fd t t',
        l.op.opens = some (fd, t) → l'.op.opens ≠ some (fd, t') := by
  have hrun := Exec.ofServer h0 h
  have hclose : system.Exec NoClose _ (toSystem tr) s.toSystem := hrun.mono fun _ _ hc => hc.noClose
  refine ⟨hrun.mono fun _ _ _ => trivial, Exec.not_existing hrun, ?_, ?_⟩
  · intro l hl fd t hop
    exact Exec.opened_stays hclose _ (List.mem_map_of_mem hl) fd t hop
  · exact List.pairwise_map.mp (Exec.opened_once hclose)

/-- `resource/config.toml` -/
def Config.shipped : Config := ⟨"main", 4, 8008⟩

/-- The main thread runs `Init`: the script returns from `OnInit` at once, and
the listening socket is 5. -/
def boots : List (Nat × Choice) :=
  [(6, .newScriptService "main" 0), (6, .jsExports ["OnInit"]), (6, .go), (6, .go), (6, .go),
    (6, .jsReturn), (6, .newGatewayService "gateway" 0), (6, .go), (6, .go), (6, .listen 8008 1),
    (6, .opened 5), (6, .bound 8008), (6, .ok), (6, .go), (6, .ok), (6, .go)]

/-- A client comes in as 6 and sends a byte; a worker has taken the message. -/
def serves : List (Nat × Choice) :=
  boots ++ (5, .connect 0) :: polls 4 5 0 ++ accepts 4 6 [] ++ steps 4 6 ++
    (5, .deliver 1 [104]) :: polls 4 6 1 ++ steps 4 4 ++ steps 0 13

theorem exists_served (acts : List (Nat × Choice)) (P : List ServerLabel × ServerState → Prop)
    [DecidablePred P]
    (h : (Config.shipped.initial.bind fun s₀ =>
      (server .shipped).record Any s₀ acts).any (P ·) = true) :
    ∃ s₀ tr s, Config.shipped.initial = some s₀ ∧ (server .shipped).Exec Any s₀ tr s ∧
      P (tr, s) := by
  obtain ⟨⟨tr, s⟩, hbind, hP⟩ := (Option.any_eq_true _ _).mp h
  obtain ⟨s₀, h0, hrec⟩ := Option.bind_eq_some_iff.mp hbind
  exact ⟨s₀, tr, s, h0, Machine.exec_of_record hrec, of_decide_eq_true hP⟩

theorem server_grows_listening : ∃ tr s, (s : ServerState).shared.OpenAs 5 .listen ∧
    system.Exec Any (XianNet.initial 4 Config.shipped.processingNum 1) tr s.toSystem := by
  obtain ⟨s₀, tr, s, h0, hrun, hopen⟩ := exists_served boots
    (fun r => ∃ l ∈ r.1, l.op.opens = some (5, .listen)) (by decide +kernel)
  obtain ⟨l, hl, hop⟩ := hopen
  obtain ⟨hsys, -, hopened, -⟩ := server_grows h0 hrun
  exact ⟨_, s, hopened l hl 5 .listen hop, hsys⟩

/-- The gateway reads from and writes to the connection whose event made the
message that it handles, and that connection is open. -/
theorem server_event_connection (h0 : cfg.initial = some s₀) (h : (server cfg).Exec Any s₀ tr s)
    (htop : s.threads[t]? = some (.frame (.gateway pc) :: rest)) :
    ∃ b, Handling (toSystem tr) t b ∧ pc.fd = b.fd ∧
      s.shared.kernel.descriptors pc.fd = some b.cause := by
  have hrun := Exec.ofServer h0 h
  have htop' : s.toSystem.threads[t]? = some (.gateway pc :: rest.map ServerFrame.toFrame) := by
    rw [State.threads_map, htop]
    rfl
  obtain ⟨b, hb, hfd, hkeep⟩ :=
    (Exec.gatewayOk (hrun.mono fun _ _ hc => hc.settled) t _ htop').frames pc List.mem_cons_self
  have hopen := (Exec.numbersOpen (hrun.mono fun _ _ hc => hc.native)).frames (.gateway pc)
    (State.mem_frames.mpr ⟨t, _, htop', List.mem_cons_self⟩) pc.fd (List.mem_singleton_self _)
  obtain ⟨x, hx⟩ := Option.isSome_iff_exists.mp hopen
  have hcause : x = b.cause := hkeep x (by rw [← hfd]; exact hx)
  exact ⟨b, hb, hfd, hcause ▸ hx⟩

/-- The worker is about to read the byte. -/
theorem server_event_connection_reading : ∃ tr t pc b s, Handling tr t b ∧
    GatewayPc.fd pc = b.fd ∧ (s : ServerState).shared.kernel.descriptors pc.fd = some b.cause := by
  obtain ⟨s₀, tr, s, h0, hrun, htop⟩ := exists_served (serves ++ steps 0 2)
    (fun r => (r.2.threads[0]?.bind (·.head?)) = some (.frame (.gateway (.read 6 [])))) (by
      decide +kernel)
  obtain ⟨stack, hstack, hhead⟩ := Option.bind_eq_some_iff.mp htop
  obtain ⟨rest, rfl⟩ := List.head?_eq_some_iff.mp hhead
  obtain ⟨b, hb, hfd, hd⟩ := server_event_connection h0 hrun hstack
  exact ⟨_, _, _, b, s, hb, hfd, hd⟩

/-- A client that `OnAccept` has registered stays open, registered and in the
map, for good. -/
theorem server_clients_served (h0 : cfg.initial = some s₀) (h : (server cfg).Exec Any s₀ tr s)
    (ha : ∃ l ∈ toSystem tr, admitted l = some x) (hx : (s.shared.kernel.files x).isClient) :
    s.shared.kernel.descriptors (s.shared.kernel.files x).fd = some x ∧
      (s.shared.kernel.files x).interest.isSome ∧
      ∃ c, s.shared.connectionMap.find (s.shared.kernel.files x).fd.toUInt32 = some c ∧
        c.fd = (s.shared.kernel.files x).fd ∧ c.type = .client ∧ c.file = some x := by
  have hrun := Exec.ofServer h0 h
  have hreach : system.Reach NoClose _ s.toSystem := ⟨_, hrun.mono fun _ _ hc => hc.noClose⟩
  have hcareful : system.Exec Careful _ (toSystem tr) s.toSystem :=
    hrun.strengthen fun pre s₁ l _ hr hc _ => by
      have hclosing := Reach.closing ⟨pre, hr.mono fun _ _ hc => hc.noClose⟩
      exact ⟨fun k => hc.noClose k none, fun y _ g hg => by rw [hclosing g hg]; nofun⟩
  obtain ⟨hspared, hserved⟩ := Exec.spared hcareful x hx (Exec.not_issued hrun)
  obtain ⟨hreg, hentered⟩ := hserved ha
  obtain ⟨c, hc⟩ := Option.isSome_iff_exists.mp hentered
  obtain ⟨hfd, hfile, hkind⟩ :=
    (Reach.networkOk (Reach.careful hreach)).entry_of_open hspared.isOpen hc
  have hclient : decide (c.type = .client) = true := hkind ▸ hx
  exact ⟨hspared.isOpen, hreg, c, hc, hfd, of_decide_eq_true hclient, hfile⟩

theorem server_clients_served_first : ∃ s, (s : ServerState).shared.kernel.descriptors 6 = some 1 ∧
    (s.shared.kernel.files 1).interest.isSome := by
  obtain ⟨s₀, tr, s, h0, hrun, ha, hx, hfd⟩ := exists_served serves
    (fun r => (∃ l ∈ toSystem r.1, admitted l = some 1) ∧ (r.2.shared.kernel.files 1).isClient ∧
      (r.2.shared.kernel.files 1).fd = 6) (by decide +kernel)
  have hfd : (s.shared.kernel.files 1).fd = 6 := hfd
  obtain ⟨hopen, hreg, -⟩ := server_clients_served h0 hrun ha hx
  exact ⟨s, hfd ▸ hopen, hreg⟩

end XianNet
