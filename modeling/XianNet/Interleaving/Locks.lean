import XianNet.Interleaving.Simulation
import XianNet.Interleaving.Weight

/-!
# Methods under locks

A machine whose steps are methods of shared objects is an abstraction: a real
method takes a lock, reads, writes once and releases the lock, and other
threads move in between. `Guards.locked` is that machine. Every run of it does
the operations of a run of the abstract machine, in the same order
(`Guards.refines`), and a thread never waits for a lock whose holder is stuck
(`Guards.progress`).
-/

namespace Interleaving

-- ---------------------------------------------------------------------------
-- Locks
-- ---------------------------------------------------------------------------

inductive Mode
  | exclusive
  | shared
  deriving DecidableEq, Repr

structure LockState where
  writer : Bool := false
  readers : Nat := 0
  deriving DecidableEq, Repr

namespace LockState

def available (l : LockState) : Mode → Bool
  | .exclusive => !l.writer && l.readers == 0
  | .shared => !l.writer

def acquire (l : LockState) : Mode → LockState
  | .exclusive => { l with writer := true }
  | .shared => { l with readers := l.readers + 1 }

def release (l : LockState) : Mode → LockState
  | .exclusive => { l with writer := false }
  | .shared => { l with readers := l.readers - 1 }

end LockState

@[simp] theorem LockState.available_empty (mode : Mode) : LockState.available {} mode := by
  cases mode <;> rfl

theorem LockState.release_acquire {l : LockState} (ha : l.available mode) :
    (l.acquire mode).release mode = l := by
  cases l
  cases mode with
  | exclusive => simp_all [LockState.available, LockState.acquire, LockState.release]
  | shared => simp [LockState.acquire, LockState.release]

/-- The lock has so many writers and readers, and a writer is alone. -/
structure LockOk (l : LockState) (writers readers : Nat) : Prop where
  writer : writers = l.writer.toNat
  readers : readers = l.readers
  excluded : l.writer → l.readers = 0

theorem LockOk.acquire (h : LockOk l w r) (ha : l.available mode) :
    LockOk (l.acquire mode) (w + if mode = .exclusive then 1 else 0)
      (r + if mode = .shared then 1 else 0) := by
  obtain ⟨rfl, rfl, hx⟩ := h
  cases mode with
  | exclusive =>
    simp only [LockState.available, Bool.and_eq_true, Bool.not_eq_true', beq_iff_eq] at ha
    exact ⟨by simp [LockState.acquire, ha.1], by simp [LockState.acquire], fun _ => ha.2⟩
  | shared =>
    simp only [LockState.available, Bool.not_eq_true'] at ha
    exact ⟨by simp [LockState.acquire], by simp [LockState.acquire],
      fun hl => by simp [LockState.acquire, ha] at hl⟩

theorem LockOk.release (h : LockOk l (w + if mode = .exclusive then 1 else 0)
    (r + if mode = .shared then 1 else 0)) : LockOk (l.release mode) w r := by
  obtain ⟨hw, hr, hx⟩ := h
  cases mode with
  | exclusive =>
    cases hl : l.writer <;> simp [hl] at hw
    exact ⟨by simp [LockState.release, hw], by simpa [LockState.release] using hr, nofun⟩
  | shared =>
    simp only [reduceCtorEq, ↓reduceIte] at hw hr
    exact ⟨by simpa [LockState.release] using hw, by simp [LockState.release, ← hr], fun hl => by
      simp [LockState.release, hx hl]⟩

def LockState.holders (l : LockState) : Nat := l.writer.toNat + l.readers

/-- A lock that cannot be had is held. -/
theorem LockOk.holder (h : LockOk l w r) (ha : l.available mode = false) : 0 < w ∨ 0 < r := by
  obtain ⟨rfl, rfl, -⟩ := h
  cases hw : l.writer with
  | true => exact .inl Nat.one_pos
  | false =>
    right
    cases mode with
    | exclusive => simpa [LockState.available, hw, Nat.pos_iff_ne_zero] using ha
    | shared => simp [LockState.available, hw] at ha

/-- A release leaves one holder less. -/
theorem LockOk.release_holders (h : LockOk l w r) (hw : mode = .exclusive → 0 < w)
    (hr : mode = .shared → 0 < r) : (l.release mode).holders < l.holders := by
  obtain ⟨rfl, rfl, -⟩ := h
  cases mode with
  | exclusive =>
    have hpos := hw rfl
    simp only [LockState.holders, LockState.release, Bool.toNat_false]
    omega
  | shared =>
    have hpos := hr rfl
    simp only [LockState.holders, LockState.release]
    omega

theorem LockOk.empty (h : LockOk l 0 0) : l = {} := by
  obtain ⟨hw, hr, -⟩ := h
  cases l with
  | mk writer readers =>
    cases writer
    · exact congrArg (LockState.mk false) hr.symm
    · cases hw

/-- A writer is the only holder. -/
theorem LockOk.alone (h : LockOk l w r) (hw : 0 < w) : w = 1 ∧ r = 0 := by
  obtain ⟨rfl, rfl, hx⟩ := h
  cases hl : l.writer
  · rw [hl] at hw; cases hw
  · exact ⟨rfl, hx hl⟩

-- ---------------------------------------------------------------------------
-- Methods
-- ---------------------------------------------------------------------------

/-- What a method does while it holds the lock of the part `α`: it reads the
part, any number of times, and its last access is the step. -/
inductive Body (α σ ρ : Type)
  | read (next : α → Body α σ ρ)
  | act (result : σ → ρ)

/-- The result when nobody interferes. -/
def Body.eval (part : α) (s : σ) : Body α σ ρ → ρ
  | .read next => (next part).eval part s
  | .act result => result s

structure Method (ι : Type) (part : ι → Type) (σ ρ : Type) where
  lock : ι
  mode : Mode
  body : Body (part lock) σ ρ

/-- The steps of a machine that are methods, and the part that each lock is for. -/
structure Guards (M : Machine σ φ κ ω) (ι : Type) (part : ι → Type) where
  proj : (i : ι) → σ → part i
  method : φ → κ → Option (Method ι part σ (ω × List φ))
  sound : ∀ {f c m}, method f c = some m → ∀ s, M.step s f c = some (m.body.eval (proj m.lock s) s)

structure Locked (σ ι : Type) where
  base : σ
  locks : ι → LockState

/-- A frame of the machine, or a call of a method: before its lock, inside, or
before the release. -/
inductive LockedFrame (φ κ ω σ ι : Type) (part : ι → Type)
  | plain (f : φ)
  | enter (f : φ) (c : κ) (m : Method ι part σ (ω × List φ))
  | inside (f : φ) (c : κ) (m : Method ι part σ (ω × List φ))
      (rest : Body (part m.lock) σ (ω × List φ))
  | leave (i : ι) (mode : Mode)

inductive LockedOp (ω ι : Type)
  | base (op : ω)
  | acquire (i : ι) (mode : Mode)
  | release (i : ι) (mode : Mode)
  | access

variable {M : Machine σ φ κ ω} {ι : Type} {part : ι → Type}

namespace Guards

def step (G : Guards M ι part) (s : Locked σ ι) (f : LockedFrame φ κ ω σ ι part) (c : κ) :
    Option (LockedOp ω ι × List (LockedFrame φ κ ω σ ι part)) :=
  match f with
  | .plain f =>
    match G.method f c with
    | some m => some (.access, [.enter f c m])
    | none => (M.step s.base f c).map fun r => (.base r.1, r.2.map .plain)
  | .enter f c m =>
    if (s.locks m.lock).available m.mode then
      some (.acquire m.lock m.mode, [.inside f c m m.body])
    else none
  | .inside f c m (.read next) =>
    some (.access, [.inside f c m (next (G.proj m.lock s.base))])
  | .inside _ _ m (.act result) =>
    some (.base (result s.base).1, .leave m.lock m.mode :: (result s.base).2.map .plain)
  | .leave i mode => some (.release i mode, [])

variable [DecidableEq ι]

def apply (M : Machine σ φ κ ω) (s : Locked σ ι) : LockedOp ω ι → Locked σ ι
  | .base op => { s with base := M.apply s.base op }
  | .acquire i mode => { s with locks := Function.update s.locks i ((s.locks i).acquire mode) }
  | .release i mode => { s with locks := Function.update s.locks i ((s.locks i).release mode) }
  | .access => s

def locked (G : Guards M ι part) :
    Machine (Locked σ ι) (LockedFrame φ κ ω σ ι part) κ (LockedOp ω ι) :=
  ⟨G.step, apply M⟩

end Guards

-- ---------------------------------------------------------------------------
-- The steps
-- ---------------------------------------------------------------------------

namespace LockedFrame

/-- The lock that a frame has. -/
def holds : LockedFrame φ κ ω σ ι part → Option (ι × Mode)
  | .inside _ _ m _ => some (m.lock, m.mode)
  | .leave i mode => some (i, mode)
  | _ => none

/-- The lock that a frame is about to take. -/
def waits : LockedFrame φ κ ω σ ι part → Option (ι × Mode)
  | .enter _ _ m => some (m.lock, m.mode)
  | _ => none

/-- The frame of the machine that a call stands for. After its last access the
call is over. -/
def base : LockedFrame φ κ ω σ ι part → List φ
  | .plain f | .enter f _ _ | .inside f _ _ _ => [f]
  | .leave _ _ => []

/-- The frame of the machine, when it is not a call of a locked method. -/
def plain? : LockedFrame φ κ ω σ ι part → Option φ
  | .plain f => some f
  | _ => none

end LockedFrame

open LockedFrame (plain)

theorem plain?_eq_some {f : LockedFrame φ κ ω σ ι part} : f.plain? = some g ↔ f = plain g := by
  cases f <;> simp [LockedFrame.plain?]

/-- A stack without calls of locked methods is read off its frames. -/
theorem eq_map_plain {F : List φ} {stack : List (LockedFrame φ κ ω σ ι part)}
    (h : stack.map LockedFrame.plain? = F.map some) : stack = F.map plain := by
  induction stack generalizing F with
  | nil => cases F with
    | nil => rfl
    | cons _ _ => cases h
  | cons f stack ih =>
    cases F with
    | nil => cases h
    | cons g F =>
      obtain ⟨hf, hrest⟩ := List.cons.inj h
      rw [ih hrest, plain?_eq_some.mp hf, List.map_cons]

theorem flatMap_base_plain (fs : List φ) :
    (fs.map plain : List (LockedFrame φ κ ω σ ι part)).flatMap LockedFrame.base = fs := by
  induction fs with
  | nil => rfl
  | cons f fs ih => simpa [LockedFrame.base] using ih

theorem plain_append {fs : List φ} {rest : List (LockedFrame φ κ ω σ ι part)}
    (h : ∀ f ∈ rest, ∃ f₀, f = plain f₀) :
    ∀ f ∈ fs.map plain ++ rest, ∃ f₀, f = plain f₀ := by
  intro f hf
  rcases List.mem_append.mp hf with hf | hf
  · obtain ⟨f₀, -, rfl⟩ := List.mem_map.mp hf
    exact ⟨f₀, rfl⟩
  · exact h f hf

theorem holds_plain {fs : List φ} :
    ∀ f ∈ (fs.map plain : List (LockedFrame φ κ ω σ ι part)), f.holds = none := by
  intro f hf
  obtain ⟨f₀, -, rfl⟩ := List.mem_map.mp hf
  rfl

theorem exists_map_plain {rest : List (LockedFrame φ κ ω σ ι part)}
    (h : ∀ f ∈ rest, ∃ f₀, f = plain f₀) : ∃ fs : List φ, rest = fs.map plain := by
  induction rest with
  | nil => exact ⟨[], rfl⟩
  | cons f rest ih =>
    obtain ⟨f₀, rfl⟩ := h _ List.mem_cons_self
    obtain ⟨fs, rfl⟩ := ih fun g hg => h g (List.mem_cons_of_mem _ hg)
    exact ⟨f₀ :: fs, rfl⟩

variable {G : Guards M ι part} {s : Locked σ ι}

inductive LockedStep (G : Guards M ι part) (s : Locked σ ι) :
    LockedFrame φ κ ω σ ι part → κ → LockedOp ω ι → List (LockedFrame φ κ ω σ ι part) → Prop
  | plain : G.method f c = none → M.step s.base f c = some (op, fs) →
      LockedStep G s (.plain f) c (.base op) (fs.map plain)
  | call : G.method f c = some m → LockedStep G s (.plain f) c .access [.enter f c m]
  | acquire : (s.locks m.lock).available m.mode →
      LockedStep G s (.enter f c m) c' (.acquire m.lock m.mode) [.inside f c m m.body]
  | read : LockedStep G s (.inside f c m (.read next)) c' .access
      [.inside f c m (next (G.proj m.lock s.base))]
  | act : result s.base = (op, fs) → LockedStep G s (.inside f c m (.act result)) c' (.base op)
      (.leave m.lock m.mode :: fs.map plain)
  | release : LockedStep G s (.leave i mode) c' (.release i mode) []

theorem Guards.step_cases (h : G.step s f c = some (op, fs)) : LockedStep G s f c op fs := by
  unfold Guards.step at h
  split at h
  · split at h
    · rename_i hm; cases h; exact .call hm
    · rename_i hm
      obtain ⟨⟨op', fs'⟩, hstep, heq⟩ := Option.map_eq_some_iff.mp h
      cases heq
      exact .plain hm hstep
  · split at h
    · rename_i ha; cases h; exact .acquire ha
    · cases h
  · cases h; exact .read
  · cases h; exact .act rfl
  · cases h; exact .release

/-- A thread is in one method at most, and in nothing above it. -/
def Orderly (stack : List (LockedFrame φ κ ω σ ι part)) : Prop :=
  ∀ f ∈ stack.tail, ∃ f₀, f = .plain f₀

/-- A lock is had by the frame on top. -/
theorem Orderly.top {stack : List (LockedFrame φ κ ω σ ι part)} (hi : Orderly stack)
    (hf : f ∈ stack) (hh : f.holds = some x) : ∃ rest, stack = f :: rest := by
  cases stack with
  | nil => cases hf
  | cons g rest =>
    rcases List.mem_cons.mp hf with rfl | hf
    · exact ⟨rest, rfl⟩
    · obtain ⟨f₀, rfl⟩ := hi f hf
      cases hh

theorem Orderly.step (hi : Orderly (f :: rest)) (h : LockedStep G s f c op fs) :
    Orderly (fs ++ rest) := by
  have hrest : ∀ f ∈ rest, ∃ f₀, f = plain f₀ := hi
  cases h with
  | plain => exact fun f hf => plain_append hrest f (List.mem_of_mem_tail hf)
  | call | acquire | read => exact hrest
  | act => exact plain_append hrest
  | release => exact fun f hf => hrest f (List.mem_of_mem_tail hf)

-- ---------------------------------------------------------------------------
-- What a call has read
-- ---------------------------------------------------------------------------

/-- What is left of a call has the result that the method has now. -/
def LockedFrame.Current (G : Guards M ι part) (s : Locked σ ι) :
    LockedFrame φ κ ω σ ι part → Prop
  | .enter f c m => G.method f c = some m
  | .inside f c m rest => G.method f c = some m ∧ ∀ base,
      rest.eval (G.proj m.lock s.base) base = m.body.eval (G.proj m.lock s.base) base
  | _ => True

theorem LockedFrame.Current.apply {f : LockedFrame φ κ ω σ ι part} (h : f.Current G s)
    (hpart : ∀ i mode, f.holds = some (i, mode) → G.proj i s'.base = G.proj i s.base) :
    f.Current G s' := by
  cases f with
  | inside f c m rest =>
    refine ⟨h.1, ?_⟩
    rw [hpart m.lock m.mode rfl]
    exact h.2
  | _ => exact h

/-- The step that the last access of a method does is the machine's. -/
theorem LockedFrame.Current.step {f : φ} {result : σ → ω × List φ}
    (h : LockedFrame.Current G s (.inside f c m (.act result))) :
    M.step s.base f c = some (result s.base) := by
  rw [G.sound h.1 s.base, ← h.2 s.base]
  rfl

-- ---------------------------------------------------------------------------
-- The machine without the locks
-- ---------------------------------------------------------------------------

/-- Forget the locks, and how far each call is. -/
def forget (s : State (Locked σ ι) (LockedFrame φ κ ω σ ι part)) : State σ φ :=
  ⟨s.shared.base, s.threads.map (·.flatMap LockedFrame.base)⟩

variable {S : State (Locked σ ι) (LockedFrame φ κ ω σ ι part)}
variable {rest gs : List (LockedFrame φ κ ω σ ι part)}

theorem threads_forget {t : Nat} (ht : S.threads[t]? = some (f :: rest)) :
    (forget S).threads[t]? = some (f.base ++ rest.flatMap LockedFrame.base) := by
  simp [forget, ht]

theorem set_of_getElem? {xs : List α} (h : xs[t]? = some x) : xs.set t x = xs := by
  obtain ⟨hlt, rfl⟩ := List.getElem?_eq_some_iff.mp h
  exact List.set_getElem_self hlt

theorem forget_stutter {b : Locked σ ι} (ht : S.threads[t]? = some (f :: rest))
    (hgs : gs.flatMap LockedFrame.base = f.base) (hb : b.base = S.shared.base) :
    forget ⟨b, S.threads.set t (gs ++ rest)⟩ = forget S := by
  have hself : (forget S).threads.set t (f.base ++ rest.flatMap LockedFrame.base) =
      (forget S).threads := set_of_getElem? (threads_forget ht)
  simpa [forget, List.map_set, hgs, hb] using hself

-- ---------------------------------------------------------------------------
-- Who has a lock
-- ---------------------------------------------------------------------------

variable [DecidableEq ι] {F R : Multiset (LockedFrame φ κ ω σ ι part)}

/-- How many frames have the lock in that mode. -/
def held (i : ι) (mode : Mode) (F : Multiset (LockedFrame φ κ ω σ ι part)) : Nat :=
  F.countP fun f => f.holds = some (i, mode)

theorem held_cons (f : LockedFrame φ κ ω σ ι part) :
    held i mode (f ::ₘ F) = held i mode F + if f.holds = some (i, mode) then 1 else 0 :=
  Multiset.countP_cons _ _ _

theorem held_add : held i mode (F + R) = held i mode F + held i mode R := Multiset.countP_add _ _ _

theorem held_plain (fs : List φ) : held i mode
    (Multiset.ofList (fs.map plain) : Multiset (LockedFrame φ κ ω σ ι part)) = 0 := by
  rw [held, Multiset.countP_eq_zero]
  intro f hf
  obtain ⟨f', -, rfl⟩ := List.mem_map.mp hf
  exact nofun

theorem held_pos (hf : f ∈ F) (hh : f.holds = some (i, mode)) : 0 < held i mode F :=
  Multiset.countP_pos_of_mem hf hh

theorem held_of_none {f : LockedFrame φ κ ω σ ι part} (h : f.holds = none) :
    held i mode (f ::ₘ F) = held i mode F := by
  rw [held_cons, h]
  simp

theorem held_of_some {f : LockedFrame φ κ ω σ ι part} (h : f.holds = some (j, mode')) :
    held i mode (f ::ₘ F) = held i mode F + if j = i ∧ mode' = mode then 1 else 0 := by
  rw [held_cons, h]
  simp

/-- The locks say who is inside. -/
def LocksOk (s : Locked σ ι) (F : Multiset (LockedFrame φ κ ω σ ι part)) : Prop :=
  ∀ i, LockOk (s.locks i) (held i .exclusive F) (held i .shared F)

theorem LocksOk.step (hi : LocksOk s (f ::ₘ R)) (h : LockedStep G s f c op fs) :
    LocksOk (Guards.apply M s op) ((fs : Multiset (LockedFrame φ κ ω σ ι part)) + R) := by
  intro i
  have hi := hi i
  cases h with
  | plain =>
    rw [held_of_none rfl, held_of_none rfl] at hi
    rw [held_add, held_add, held_plain, held_plain, Nat.zero_add, Nat.zero_add]
    exact hi
  | call =>
    rw [held_of_none rfl, held_of_none rfl] at hi
    rw [Multiset.coe_singleton, Multiset.singleton_add, held_of_none rfl, held_of_none rfl]
    exact hi
  | @acquire f c m c' ha =>
    rw [held_of_none rfl, held_of_none rfl] at hi
    rw [Multiset.coe_singleton, Multiset.singleton_add, held_of_some rfl, held_of_some rfl]
    by_cases h : m.lock = i
    · subst h
      simpa [Guards.apply] using hi.acquire ha
    · simpa [Guards.apply, h, Ne.symm h] using hi
  | read =>
    rw [held_of_some rfl, held_of_some rfl] at hi
    rw [Multiset.coe_singleton, Multiset.singleton_add, held_of_some rfl, held_of_some rfl]
    exact hi
  | act =>
    rw [held_of_some rfl, held_of_some rfl] at hi
    rw [← Multiset.cons_coe, Multiset.cons_add, held_of_some rfl, held_of_some rfl, held_add,
      held_add, held_plain, held_plain, Nat.zero_add, Nat.zero_add]
    exact hi
  | @release j mode c =>
    rw [held_of_some rfl, held_of_some rfl] at hi
    rw [Multiset.coe_nil, Multiset.zero_add]
    by_cases h : j = i
    · subst h
      simp only [true_and] at hi
      simpa [Guards.apply] using hi.release
    · simpa [Guards.apply, h, Ne.symm h] using hi

/-- A writer shares its lock with nobody. -/
theorem LocksOk.alone {f g : LockedFrame φ κ ω σ ι part} (hi : LocksOk s (f ::ₘ R))
    (hf : f.holds = some (i, .exclusive)) (hg : g ∈ R) (hgi : g.holds = some (i, mode)) : False := by
  have halone := (hi i).alone (by rw [held_of_some hf]; simp)
  rw [held_of_some hf, held_of_some hf] at halone
  simp only [reduceCtorEq, and_self, and_false, ↓reduceIte, Nat.add_zero] at halone
  obtain ⟨hw, hr⟩ := halone
  have hpos := held_pos hg hgi
  cases mode <;> omega

theorem current_new {f : LockedFrame φ κ ω σ ι part} (hf : f.Current G s)
    (h : LockedStep G s f c op fs) (hg : g ∈ fs) : g.Current G (Guards.apply M s op) := by
  cases h with
  | plain => obtain ⟨f', -, rfl⟩ := List.mem_map.mp hg; trivial
  | call hm => rw [List.mem_singleton.mp hg]; exact hm
  | acquire => rw [List.mem_singleton.mp hg]; exact ⟨hf, fun _ => rfl⟩
  | read => rw [List.mem_singleton.mp hg]; exact hf
  | act =>
    rcases List.mem_cons.mp hg with rfl | hg
    · trivial
    · obtain ⟨f', -, rfl⟩ := List.mem_map.mp hg; trivial
  | release => cases hg

-- ---------------------------------------------------------------------------
-- Refinement
-- ---------------------------------------------------------------------------

theorem forget_step (ht : S.threads[t]? = some (f :: rest)) (hf : f.base = [g])
    (hgs : gs.flatMap LockedFrame.base = fs) (hm : M.step S.shared.base g c = some (op, fs)) :
    M.Step (forget S) ⟨t, g, c, op⟩
      (forget ⟨Guards.apply M S.shared (.base op), S.threads.set t (gs ++ rest)⟩) := by
  have ht' := threads_forget ht
  rw [hf, List.singleton_append] at ht'
  have hshared : (forget S).shared = S.shared.base := rfl
  simp only [Machine.Step, Machine.next, ht', hshared, hm, Option.map_some]
  simp [forget, List.map_set, hgs, Guards.apply]

/-- No step but a method that has the lock to itself changes the lock's part. -/
def Guards.Stable (G : Guards M ι part) (u₀ : State σ φ) : Prop :=
  ∀ u l u' i, M.Reach Any u₀ u → M.Step u l u' →
    (∀ m, G.method l.frame l.choice = some m → m.lock = i → m.mode = .shared) →
    G.proj i u'.shared = G.proj i u.shared

/-- What `C` allows with the locks, `D` allows without them. -/
structure Guards.Allows (G : Guards M ι part)
    (C : State (Locked σ ι) (LockedFrame φ κ ω σ ι part) →
      Label (LockedFrame φ κ ω σ ι part) κ (LockedOp ω ι) → Prop)
    (D : State σ φ → Label φ κ ω → Prop) : Prop where
  plain : ∀ S t f c op, C S ⟨t, .plain f, c, .base op⟩ → D (forget S) ⟨t, f, c, op⟩
  method : ∀ u t f c op m, G.method f c = some m → D u ⟨t, f, c, op⟩

/-- The machine without the locks is in the state that the locks allow. -/
structure Follows (G : Guards M ι part) (D : State σ φ → Label φ κ ω → Prop) (u₀ : State σ φ)
    (S : State (Locked σ ι) (LockedFrame φ κ ω σ ι part)) (u : State σ φ) : Prop where
  state : u = forget S
  reached : M.Reach D u₀ u
  locks : LocksOk S.shared S.frames
  current : ∀ f ∈ S.frames, f.Current G S.shared

/-- The operation of a step and the thread that did it. -/
def Label.done (l : Label φ κ ω) : List (Nat × ω) := [(l.thread, l.op)]

/-- The same with locks, where other steps do nothing. -/
def LockedOp.done (l : Label (LockedFrame φ κ ω σ ι part) κ (LockedOp ω ι)) : List (Nat × ω) :=
  match l.op with
  | .base op => [(l.thread, op)]
  | _ => []

variable {D : State σ φ → Label φ κ ω → Prop}
variable {C : State (Locked σ ι) (LockedFrame φ κ ω σ ι part) →
  Label (LockedFrame φ κ ω σ ι part) κ (LockedOp ω ι) → Prop}

/-- A call that has a lock keeps what it read if no other writes the part. -/
theorem Follows.current_step {u₀ u : State σ φ} (hi : Follows G D u₀ S u)
    (hF : S.frames = f ::ₘ R) (h : LockedStep G S.shared f c op fs)
    (hpart : ∀ i, (∃ mode, ∃ g ∈ R, g.holds = some (i, mode)) →
      G.proj i (Guards.apply M S.shared op).base = G.proj i S.shared.base) :
    ∀ g ∈ (fs : Multiset (LockedFrame φ κ ω σ ι part)) + R,
      g.Current G (Guards.apply M S.shared op) := by
  intro g hg
  rcases Multiset.mem_add.mp hg with hg | hg
  · exact current_new (hi.current f (hF ▸ Multiset.mem_cons_self f R)) h hg
  · refine (hi.current g (hF ▸ Multiset.mem_cons_of_mem hg)).apply fun i mode hholds => ?_
    exact hpart i ⟨mode, g, hg, hholds⟩

/-- A step that is none of the machine's. -/
theorem Follows.stutter {u₀ u : State σ φ} {S' : State (Locked σ ι) (LockedFrame φ κ ω σ ι part)}
    (hi : Follows G D u₀ S u) (hstate : forget S' = forget S) (hlocks : LocksOk S'.shared S'.frames)
    (hcurrent : ∀ f ∈ S'.frames, f.Current G S'.shared) :
    ∃ tr u', M.Exec D u tr u' ∧ Follows G D u₀ S' u' ∧ tr.flatMap Label.done = [] :=
  ⟨[], u, .refl u, ⟨hi.state.trans hstate.symm, hi.reached, hlocks, hcurrent⟩, rfl⟩

theorem Follows.step {u₀ u : State σ φ} (hG : G.Stable u₀) (hD : G.Allows C D)
    (hi : Follows G D u₀ S u) (hc : C S l) (hs : G.locked.Step S l S') :
    ∃ tr u', M.Exec D u tr u' ∧ Follows G D u₀ S' u' ∧ tr.flatMap Label.done = LockedOp.done l := by
  obtain ⟨gs, R, hm, hF, hF', -⟩ := hs.frames
  obtain ⟨rest, gs', ht, hm', rfl⟩ := Machine.Step.eq hs
  rw [hm] at hm'
  cases hm'
  have hstep := Guards.step_cases hm
  have hlocks := LocksOk.step (hF ▸ hi.locks) hstep
  have hcurrent := hi.current_step hF hstep
  rw [← hF'] at hlocks hcurrent
  obtain ⟨t, f, c, op⟩ := l
  dsimp only at ht hstep hF hlocks hcurrent hc ⊢
  cases hstep with
  | @plain f c op fs hnone hmove =>
    have hup := forget_step ht rfl (flatMap_base_plain fs) hmove
    obtain ⟨rfl, hreach, -, -⟩ := hi
    have hone := Machine.Exec.single (hD.plain _ _ _ _ _ hc) hup
    refine ⟨_, _, hone, ⟨rfl, hreach.exec hone, hlocks, ?_⟩, rfl⟩
    have hany := hreach.mono (D := Any) fun _ _ _ => trivial
    refine hcurrent fun i _ => hG _ _ _ i hany hup fun m hmeth => ?_
    rw [show G.method f c = none from hnone] at hmeth
    cases hmeth
  | call => exact hi.stutter (forget_stutter ht rfl rfl) hlocks (hcurrent fun _ _ => rfl)
  | acquire => exact hi.stutter (forget_stutter ht rfl rfl) hlocks (hcurrent fun _ _ => rfl)
  | read => exact hi.stutter (forget_stutter ht rfl rfl) hlocks (hcurrent fun _ _ => rfl)
  | @act result op fs f c m c' heq =>
    have hmine := hi.current _ (hF ▸ Multiset.mem_cons_self _ R)
    have hgs : (.leave m.lock m.mode :: fs.map plain : List (LockedFrame φ κ ω σ ι part)).flatMap
        LockedFrame.base = fs := flatMap_base_plain fs
    have hup := forget_step ht rfl hgs (heq ▸ hmine.step)
    obtain ⟨rfl, hreach, hold, -⟩ := hi
    have hone := Machine.Exec.single (hD.method _ _ _ _ _ _ hmine.1) hup
    refine ⟨_, _, hone, ⟨rfl, hreach.exec hone, hlocks, ?_⟩, rfl⟩
    have hany := hreach.mono (D := Any) fun _ _ _ => trivial
    refine hcurrent fun i hheld => hG _ _ _ i hany hup fun m' hmeth hlock => ?_
    obtain ⟨mode, g, hg, hholds⟩ := hheld
    have hsame : some m = some m' := hmine.1.symm.trans hmeth
    cases hsame
    subst hlock
    cases hmode : m.mode with
    | shared => rfl
    | exclusive =>
      have hself : LockedFrame.holds (.inside f c m (.act result)) = some (m.lock, .exclusive) := by
        rw [← hmode]; rfl
      exact (LocksOk.alone (hF ▸ hold) hself hg hholds).elim
  | release => exact hi.stutter (forget_stutter ht rfl rfl) hlocks (hcurrent fun _ _ => rfl)

/-- Threads that are in no method, and nobody has a lock. -/
structure Unlocked (S : State (Locked σ ι) (LockedFrame φ κ ω σ ι part)) : Prop where
  frames : ∀ f ∈ S.frames, ∃ f₀, f = .plain f₀
  locks : ∀ i, S.shared.locks i = {}

theorem Unlocked.start (h : Unlocked S) : LocksOk S.shared S.frames := by
  have hnone : ∀ i mode, held i mode S.frames = 0 := by
    intro i mode
    rw [held, Multiset.countP_eq_zero]
    intro f hf
    obtain ⟨f₀, rfl⟩ := h.frames f hf
    exact nofun
  intro i
  rw [hnone, hnone, h.locks]
  exact ⟨rfl, rfl, nofun⟩

theorem Unlocked.follows (h : Unlocked S) : Follows G D (forget S) S (forget S) := by
  refine ⟨rfl, .refl _, h.start, fun f hf => ?_⟩
  obtain ⟨f₀, rfl⟩ := h.frames f hf
  trivial

/-- With the locks, the threads do what they could do if every method were one
step: there is a run of the machine in which the same threads do the same
operations in the same order, and it ends where the run with locks does. -/
theorem Guards.refines {S₀ : State (Locked σ ι) (LockedFrame φ κ ω σ ι part)} (h0 : Unlocked S₀)
    (hG : G.Stable (forget S₀)) (hD : G.Allows C D) (h : G.locked.Exec C S₀ tr' S) :
    ∃ tr, M.Exec D (forget S₀) tr (forget S) ∧
      tr.flatMap Label.done = tr'.flatMap LockedOp.done := by
  obtain ⟨tr, u, hrun, hfollows, hsame⟩ := h.simulate (Follows G D (forget S₀)) LockedOp.done
    Label.done h0.follows fun _ _ _ _ _ _ hc hs hi => hi.step hG hD hc hs
  exact ⟨tr, hfollows.state ▸ hrun, hsame⟩

-- ---------------------------------------------------------------------------
-- Progress
-- ---------------------------------------------------------------------------

theorem Unlocked.orderly {S₀ : State (Locked σ ι) (LockedFrame φ κ ω σ ι part)} (h0 : Unlocked S₀)
    (h : G.locked.Reach C S₀ S) :
    ∀ (t : Nat) stack, S.threads[t]? = some stack → Orderly stack := by
  obtain ⟨tr, h⟩ := h
  refine h.stacks (I := fun _ _ _ stack => Orderly stack) ?_ ?_ ?_
  · intro t stack ht f hf
    exact h0.frames f (State.mem_frames.mpr ⟨t, stack, ht, List.mem_of_mem_tail hf⟩)
  · intro tr S l fs rest _ _ _ hm hi
    exact hi.step (Guards.step_cases hm)
  · intro tr S l S' t stack _ _ _ _ _ hi
    exact hi

theorem Unlocked.locksOk {S₀ : State (Locked σ ι) (LockedFrame φ κ ω σ ι part)} (h0 : Unlocked S₀)
    (h : G.locked.Reach C S₀ S) : LocksOk S.shared S.frames :=
  h.invariant h0.start fun _ _ _ _ _ _ _ hm hi => hi.step (Guards.step_cases hm)

/-- A lock that cannot be had is had by another thread, in the frame on top. -/
theorem Unlocked.holder {S₀ : State (Locked σ ι) (LockedFrame φ κ ω σ ι part)} {t : Nat}
    (h0 : Unlocked S₀) (h : G.locked.Reach C S₀ S) (ht : S.threads[t]? = some (f :: rest))
    (hf : f.holds = none) (ha : (S.shared.locks i).available mode = false) :
    ∃ t' g rest' mode', t' ≠ t ∧ S.threads[t']? = some (g :: rest') ∧ g.holds = some (i, mode') := by
  obtain ⟨mode', hheld⟩ : ∃ mode', 0 < held i mode' S.frames := by
    rcases (h0.locksOk h i).holder ha with hheld | hheld
    · exact ⟨_, hheld⟩
    · exact ⟨_, hheld⟩
  obtain ⟨g, hg, hholds⟩ := Multiset.countP_pos.mp hheld
  obtain ⟨t', stack, ht', hg⟩ := State.mem_frames.mp hg
  obtain ⟨rest', rfl⟩ := (h0.orderly h t' stack ht').top hg hholds
  refine ⟨t', g, rest', mode', ?_, ht', hholds⟩
  rintro rfl
  rw [ht] at ht'
  cases ht'
  rw [hf] at hholds
  cases hholds

/-- A step of thread `t` inside a method. -/
def Inner (t : Nat) (_ : State (Locked σ ι) (LockedFrame φ κ ω σ ι part))
    (l : Label (LockedFrame φ κ ω σ ι part) κ (LockedOp ω ι)) : Prop :=
  (∀ f, l.frame ≠ .plain f) ∧ l.thread = t

theorem Inner.single (hs : G.locked.Step S ⟨t, f, c, op⟩ S') (hf : ∀ f₀, f ≠ .plain f₀) :
    G.locked.Exec (Inner t) S [⟨t, f, c, op⟩] S' := .single ⟨hf, rfl⟩ hs

/-- A thread that has a lock comes to its release by its own steps, and has done
then what the method computes. -/
theorem finish_body (c₀ : κ) {m : Method ι part σ (ω × List φ)}
    (b : Body (part m.lock) σ (ω × List φ))
    (ht : S.threads[t]? = some (.inside f c m b :: rest))
    (hb : b.eval (G.proj m.lock S.shared.base) S.shared.base = (op, fs)) :
    ∃ tr S', G.locked.Exec (Inner t) S tr S' ∧
      S'.threads[t]? = some (.leave m.lock m.mode :: fs.map plain ++ rest) ∧
      S'.shared = ⟨M.apply S.shared.base op, S.shared.locks⟩ := by
  induction b generalizing S with
  | read next ih =>
    obtain ⟨S₁, hs, hsh, ht₁⟩ := G.locked.exists_step (c := c₀) ht rfl
    have hsh : S₁.shared = S.shared := hsh
    obtain ⟨tr, S', hrun, ht', hsh'⟩ := ih _ ht₁ (by rw [hsh]; exact hb)
    exact ⟨_, S', (Inner.single hs nofun).trans hrun, ht', by rw [hsh', hsh]⟩
  | act result =>
    obtain ⟨S₁, hs, hsh, ht₁⟩ := G.locked.exists_step (c := c₀) ht rfl
    have hb : result S.shared.base = (op, fs) := hb
    refine ⟨_, S₁, Inner.single hs nofun, ?_, ?_⟩
    · rw [ht₁, hb]
    · rw [hsh, hb]
      rfl

theorem finish_leave (c₀ : κ) (ht : S.threads[t]? = some (.leave i mode :: rest)) :
    ∃ tr S', G.locked.Exec (Inner t) S tr S' ∧ S'.threads[t]? = some rest ∧ S'.shared =
      ⟨S.shared.base, Function.update S.shared.locks i ((S.shared.locks i).release mode)⟩ := by
  obtain ⟨S', hs, hsh, ht'⟩ := G.locked.exists_step (c := c₀) ht rfl
  exact ⟨_, S', Inner.single hs nofun, ht', hsh⟩

/-- It has the lock no more. -/
theorem finish (c₀ : κ) (ht : S.threads[t]? = some (f :: rest)) (hf : f.holds = some (i, mode)) :
    ∃ tr S', ∃ fs : List φ, G.locked.Exec (Inner t) S tr S' ∧
      S'.threads[t]? = some (fs.map plain ++ rest) ∧
      S'.shared.locks = Function.update S.shared.locks i ((S.shared.locks i).release mode) := by
  cases f with
  | inside f c m b =>
    cases hf
    obtain ⟨tr, S₁, hrun, ht₁, hsh₁⟩ := finish_body c₀ b ht rfl
    obtain ⟨tr', S', hrun', ht', hsh⟩ := finish_leave c₀ ht₁
    exact ⟨_, S', _, hrun.trans hrun', ht', by rw [hsh, hsh₁]⟩
  | leave =>
    cases hf
    obtain ⟨tr, S', hrun, ht', hsh⟩ := finish_leave c₀ ht
    exact ⟨tr, S', [], hrun, ht', by rw [hsh]⟩
  | _ => cases hf

/-- A thread whose lock can be had goes through the method, and leaves no trace
of it but what the method computes. -/
theorem finish_enter (c₀ : κ) (ht : S.threads[t]? = some (.enter f c m :: rest))
    (ha : (S.shared.locks m.lock).available m.mode)
    (hm : m.body.eval (G.proj m.lock S.shared.base) S.shared.base = (op, fs)) :
    ∃ tr S', G.locked.Exec (Inner t) S tr S' ∧ S'.threads[t]? = some (fs.map plain ++ rest) ∧
      S'.shared = ⟨M.apply S.shared.base op, S.shared.locks⟩ := by
  obtain ⟨S₁, hs₁, hsh₁, ht₁⟩ := G.locked.exists_step (c := c₀) ht (if_pos ha)
  have hbody : m.body.eval (G.proj m.lock S₁.shared.base) S₁.shared.base = (op, fs) := by
    rw [hsh₁]
    exact hm
  obtain ⟨tr, S₂, hrun, ht₂, hsh₂⟩ := finish_body c₀ m.body ht₁ hbody
  obtain ⟨tr', S', hrun', ht', hsh⟩ := finish_leave c₀ ht₂
  refine ⟨_, S', ((Inner.single hs₁ nofun).trans hrun).trans hrun', ht', ?_⟩
  rw [hsh, hsh₂, hsh₁]
  simp [Guards.locked, Guards.apply, LockState.release_acquire ha]

/-- Whoever waits for a lock waits for threads that come to release it: there
is a run of others after which the lock can be had. -/
theorem Guards.progress {S₀ : State (Locked σ ι) (LockedFrame φ κ ω σ ι part)} (h0 : Unlocked S₀)
    (h : G.locked.Reach Any S₀ S) (ht : S.threads[t]? = some (f :: rest))
    (hf : f.waits = some (i, mode)) :
    ∃ tr S', G.locked.Exec Any S tr S' ∧ (∀ l ∈ tr, l.thread ≠ t) ∧
      (S'.shared.locks i).available mode := by
  obtain ⟨f, c, m, rfl, rfl, rfl⟩ : ∃ f₀ c m, f = .enter f₀ c m ∧ m.lock = i ∧ m.mode = mode := by
    cases f with
    | enter f₀ c m => cases hf; exact ⟨f₀, c, m, rfl, rfl, rfl⟩
    | _ => cases hf
  generalize hn : (S.shared.locks m.lock).holders = n
  induction n using Nat.strong_induction_on generalizing S with
  | _ n ih =>
    cases ha : (S.shared.locks m.lock).available m.mode with
    | true => exact ⟨[], S, .refl S, nofun, ha⟩
    | false =>
      obtain ⟨t', g, rest', mode, hne, ht', hholds⟩ := h0.holder h ht rfl ha
      have hheld := held_pos (State.mem_frames.mpr ⟨t', _, ht', List.mem_cons_self⟩) hholds
      obtain ⟨tr, S₁, fs, hinner, -, hfree⟩ := finish c ht' hholds
      have hothers := hinner.forall_mem fun _ _ hc => hc.2
      have hrun := hinner.mono (D := Any) fun _ _ _ => trivial
      have hless : (S₁.shared.locks m.lock).holders < n := by
        rw [hfree, Function.update_self, ← hn]
        exact (h0.locksOk h m.lock).release_holders (fun hmode => hmode ▸ hheld)
          fun hmode => hmode ▸ hheld
      have hothers : ∀ l ∈ tr, l.thread ≠ t := fun l hl => hothers l hl ▸ hne
      obtain ⟨tr', S', hrun', hothers', hav⟩ := ih _ hless (h.exec hrun)
        ((hrun.stays hothers).trans ht) rfl
      refine ⟨tr ++ tr', S', hrun.trans hrun', fun l hl => ?_, hav⟩
      exact (List.mem_append.mp hl).elim (hothers l) (hothers' l)

-- ---------------------------------------------------------------------------
-- One thread alone
-- ---------------------------------------------------------------------------

/-- No thread but `t` has a lock. -/
def LocksBut (t : Nat) (S : State (Locked σ ι) (LockedFrame φ κ ω σ ι part)) : Prop :=
  ∀ t' stack, t' ≠ t → S.threads[t']? = some stack → ∀ f ∈ stack, f.holds = none

/-- Nobody has a lock when thread `t` has none either. -/
theorem LocksOk.free (hi : LocksOk S.shared S.frames) (hothers : LocksBut t S)
    (ht : S.threads[t]? = some stack) (hmine : ∀ f ∈ stack, f.holds = none) :
    ∀ i, S.shared.locks i = {} := by
  have hnone : ∀ i mode, held i mode S.frames = 0 := by
    intro i mode
    rw [held, Multiset.countP_eq_zero]
    intro f hf
    obtain ⟨t', stack', ht', hf⟩ := State.mem_frames.mp hf
    by_cases heq : t' = t
    · subst heq
      rw [ht] at ht'
      cases ht'
      rw [hmine f hf]
      exact nofun
    · rw [hothers t' stack' heq ht' f hf]
      exact nofun
  intro i
  have hlock := hi i
  rw [hnone, hnone] at hlock
  exact hlock.empty

/-- A thread comes out of the method that it is in. -/
theorem Unlocked.leaves {S₀ : State (Locked σ ι) (LockedFrame φ κ ω σ ι part)} (c₀ : κ)
    (h0 : Unlocked S₀) (h : G.locked.Reach C S₀ S) (ht : S.threads[t]? = some stack)
    (hothers : LocksBut t S) :
    ∃ tr S', ∃ fs : List φ, G.locked.Exec (Inner t) S tr S' ∧
      S'.threads[t]? = some (fs.map plain) := by
  have horderly := h0.orderly h t stack ht
  cases stack with
  | nil => exact ⟨[], S, [], .refl S, ht⟩
  | cons f rest =>
    have hplain : ∀ g ∈ rest, ∃ f₀, g = plain f₀ := horderly
    obtain ⟨fs, rfl⟩ := exists_map_plain hplain
    by_cases hf : f.holds = none
    · cases f with
      | plain f => exact ⟨[], S, f :: fs, .refl S, ht⟩
      | enter f c m =>
        have hfree := (h0.locksOk h).free hothers ht (List.forall_mem_cons.mpr ⟨rfl, holds_plain⟩)
        obtain ⟨tr, S', hrun, ht', -⟩ := finish_enter c₀ ht (by rw [hfree]; simp) rfl
        exact ⟨tr, S', _ ++ fs, hrun, by rw [ht', List.map_append]⟩
      | inside | leave => cases hf
    · obtain ⟨x, hx⟩ := Option.ne_none_iff_exists'.mp hf
      obtain ⟨tr, S', gs, hrun, ht', -⟩ := finish c₀ ht hx
      exact ⟨tr, S', gs ++ fs, hrun, by rw [ht', List.map_append]⟩

/-- A step of thread `t` that is inside a method or at a frame with `P`. -/
def Outer (P : φ → Prop) (t : Nat) (_ : State (Locked σ ι) (LockedFrame φ κ ω σ ι part))
    (l : Label (LockedFrame φ κ ω σ ι part) κ (LockedOp ω ι)) : Prop :=
  (∀ f, l.frame = .plain f → P f) ∧ l.thread = t

theorem Inner.outer (h : G.locked.Exec (Inner t) S tr S') (P : φ → Prop) :
    G.locked.Exec (Outer P t) S tr S' :=
  h.mono fun _ _ hc => ⟨fun f hf => absurd hf (hc.1 f), hc.2⟩

/-- A step of the machine takes the locks that it needs when all are free. -/
theorem Guards.realize {P : φ → Prop} (hfree : ∀ i, S.shared.locks i = {})
    (ht : S.threads[t]? = some (.plain f :: rest)) (hf : P f)
    (hm : M.step S.shared.base f c = some (op, fs)) :
    ∃ tr S', G.locked.Exec (Outer P t) S tr S' ∧ S'.threads[t]? = some (fs.map plain ++ rest) ∧
      S'.shared = ⟨M.apply S.shared.base op, S.shared.locks⟩ := by
  have houter : ∀ op', Outer P t S ⟨t, .plain f, c, op'⟩ :=
    fun op' => ⟨fun g hg => LockedFrame.plain.inj hg ▸ hf, rfl⟩
  cases hmeth : G.method f c with
  | none =>
    have hstep : G.step S.shared (.plain f) c = some (.base op, fs.map plain) := by
      simp [Guards.step, hmeth, hm]
    obtain ⟨S', hs, hsh, ht'⟩ := G.locked.exists_step ht hstep
    exact ⟨_, S', .single (houter _) hs, ht', hsh⟩
  | some m =>
    have hcall : G.step S.shared (.plain f) c = some (.access, [.enter f c m]) := by
      simp [Guards.step, hmeth]
    obtain ⟨S₁, hs, hsh, ht₁⟩ := G.locked.exists_step ht hcall
    have hsh : S₁.shared = S.shared := hsh
    have heval : m.body.eval (G.proj m.lock S₁.shared.base) S₁.shared.base = (op, fs) := by
      rw [hsh]
      exact Option.some.inj ((G.sound hmeth _).symm.trans hm)
    obtain ⟨tr, S', hrun, ht', hsh'⟩ := finish_enter c ht₁ (by rw [hsh, hfree]; simp) heval
    exact ⟨_, S', (Machine.Exec.single (houter _) hs).trans (Inner.outer hrun P), ht', by
      rw [hsh', hsh]⟩

theorem Outer.threads {P : φ → Prop} (h : G.locked.Exec (Outer P t) S tr S')
    (ht : S'.threads[t]? = some stack) :
    (forget S').threads = (forget S).threads.set t (stack.flatMap LockedFrame.base) := by
  have hlt : t < (forget S).threads.length := by
    rw [forget, List.length_map, ← h.length_threads]
    exact (List.getElem?_eq_some_iff.mp ht).1
  refine List.ext_getElem? fun t' => ?_
  by_cases heq : t' = t
  · subst heq
    rw [List.getElem?_set_self hlt]
    simp [forget, ht]
  · rw [List.getElem?_set_ne (Ne.symm heq)]
    simp [forget, h.others_stay heq]

/-- So a thread that runs alone without the locks can do so with them. -/
theorem Guards.realize_exec {P : φ → Prop} {u u' : State σ φ} {fs : List φ}
    (h : M.Exec (fun s l => D s l ∧ l.thread = t) u tr u') (hP : ∀ s l, D s l → P l.frame)
    (hS : forget S = u) (hfree : ∀ i, S.shared.locks i = {})
    (ht : S.threads[t]? = some (fs.map plain)) :
    ∃ tr' S', ∃ fs' : List φ, G.locked.Exec (Outer P t) S tr' S' ∧ forget S' = u' ∧
      (∀ i, S'.shared.locks i = {}) ∧ S'.threads[t]? = some (fs'.map plain) := by
  subst hS
  induction h with
  | refl => exact ⟨[], S, fs, .refl S, rfl, hfree, ht⟩
  | @step tr u l u' _ hc hs ih =>
    obtain ⟨tr', S₁, fs₁, hrun, rfl, hfree₁, ht₁⟩ := ih
    obtain ⟨rest, gs, htop, hm, rfl⟩ := Machine.Step.eq hs
    obtain ⟨hD, rfl⟩ := hc
    obtain rfl : fs₁ = l.frame :: rest := by
      rw [forget, List.getElem?_map, ht₁, Option.map_some, flatMap_base_plain] at htop
      exact Option.some.inj htop
    obtain ⟨tr'', S', hrun', ht', hsh⟩ := Guards.realize hfree₁ ht₁ (hP _ _ hD) hm
    refine ⟨_, S', gs ++ rest, hrun.trans hrun', ?_, fun i => by rw [hsh]; exact hfree₁ i, by
      rw [ht', List.map_append]⟩
    have hthreads := Outer.threads hrun' ht'
    rw [List.flatMap_append, flatMap_base_plain, flatMap_base_plain] at hthreads
    rw [← hthreads]
    exact congrArg (State.mk · (forget S').threads) (congrArg Locked.base hsh)

end Interleaving