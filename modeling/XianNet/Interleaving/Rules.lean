import XianNet.Interleaving.Machine

/-!
# Rules for runs

Two ways to use a run besides a plain invariant: who is in charge of an item
that needs attention (`Machine.Reach.obligation`), and how often something can
happen when every step pays for it (`Machine.Exec.countP_le`).
-/

namespace Interleaving

variable {M : Machine σ φ κ ω} {C : State σ φ → Label φ κ ω → Prop}

/-- Every item that needs attention is marked in the shared state or in the
charge of some thread's frame. A step may drop an item's mark or its own charge
only if it puts another mark or frame in its place, or the need is gone; other
frames keep their charges. -/
theorem Machine.Reach.obligation_at (needs marked : σ → ι → Prop) (charge : σ → Nat → φ → ι → Prop)
    (h : M.Reach C s₀ s)
    (h0 : ∀ x, needs s₀.shared x →
      marked s₀.shared x ∨ ∃ t f, s₀.Holds t f ∧ charge s₀.shared t f x)
    (hkeep : ∀ s l fs R, M.Reach C s₀ s → C s l → s.frames = l.frame ::ₘ R →
      M.step s.shared l.frame l.choice = some (l.op, fs) →
      ∀ t, ∀ f ∈ R, ∀ x, charge s.shared t f x → charge (M.apply s.shared l.op) t f x)
    (hstep : ∀ s l s', M.Reach C s₀ s → C s l → M.Step s l s' → ∀ x, needs s'.shared x →
      marked s'.shared x ∨ (∃ t f, s'.Holds t f ∧ charge s'.shared t f x) ∨
        (needs s.shared x ∧ ¬ marked s.shared x ∧ ¬ charge s.shared l.thread l.frame x)) :
    ∀ x, needs s.shared x → marked s.shared x ∨ ∃ t f, s.Holds t f ∧ charge s.shared t f x := by
  refine h.induct (I := fun s => ∀ x, needs s.shared x →
    marked s.shared x ∨ ∃ t f, s.Holds t f ∧ charge s.shared t f x) h0 ?_
  intro s l s' hr ih hc hs x hx
  rcases hstep s l s' hr hc hs x hx with hmark | hheld | ⟨hneed, hnm, hnc⟩
  · exact .inl hmark
  · exact .inr hheld
  · obtain ⟨t, f, hheld, hch⟩ := (ih x hneed).resolve_left hnm
    obtain ⟨fs, R, hm, hF, hsh, hholds⟩ := hs.holds
    rcases hholds t f hheld with ⟨rfl, rfl⟩ | ⟨hR, hheld⟩
    · exact absurd hch hnc
    · exact .inr ⟨t, f, hheld, hsh ▸ hkeep s l fs R hr hc hF hm t f hR x hch⟩

/-- The same rule where it does not matter whose frame it is. -/
theorem Machine.Reach.obligation (needs marked : σ → ι → Prop) (charge : σ → φ → ι → Prop)
    (h : M.Reach C s₀ s)
    (h0 : ∀ x, needs s₀.shared x → marked s₀.shared x ∨ ∃ f ∈ s₀.frames, charge s₀.shared f x)
    (hkeep : ∀ s l fs R, M.Reach C s₀ s → C s l → s.frames = l.frame ::ₘ R →
      M.step s.shared l.frame l.choice = some (l.op, fs) →
      ∀ f ∈ R, ∀ x, charge s.shared f x → charge (M.apply s.shared l.op) f x)
    (hstep : ∀ s l fs R, M.Reach C s₀ s → C s l → s.frames = l.frame ::ₘ R →
      M.step s.shared l.frame l.choice = some (l.op, fs) →
      ∀ x, needs (M.apply s.shared l.op) x →
        marked (M.apply s.shared l.op) x ∨
        (∃ f ∈ (fs : Multiset φ) + R, charge (M.apply s.shared l.op) f x) ∨
        (needs s.shared x ∧ ¬ marked s.shared x ∧ ¬ charge s.shared l.frame x)) :
    ∀ x, needs s.shared x → marked s.shared x ∨ ∃ f ∈ s.frames, charge s.shared f x := by
  have hiff : ∀ (s : State σ φ) x, (∃ f ∈ s.frames, charge s.shared f x) ↔
      ∃ t f, s.Holds t f ∧ charge s.shared f x := fun s x => by
    constructor
    · rintro ⟨f, hf, hch⟩
      obtain ⟨t, hheld⟩ := State.mem_frames.mp hf
      exact ⟨t, f, hheld, hch⟩
    · rintro ⟨t, f, hheld, hch⟩
      exact ⟨f, State.mem_frames.mpr ⟨t, hheld⟩, hch⟩
  intro x hx
  rw [hiff]
  refine h.obligation_at needs marked (fun σ _ f x => charge σ f x)
    (fun x hx => (h0 x hx).imp_right (hiff s₀ x).mp)
    (fun s l fs R hr hc hF hm _ => hkeep s l fs R hr hc hF hm) ?_ x hx
  intro s l s' hr hc hs x hx
  obtain ⟨fs, R, hm, hF, hF', hsh⟩ := hs.frames
  rw [← hiff s', hF', hsh]
  exact hstep s l fs R hr hc hF hm x (hsh ▸ hx)

/-- A potential that no step raises and that every `p` step lowers bounds the
number of `p` steps. -/
theorem Machine.Exec.countP_le {Ψ : State σ φ → Nat} {p : Label φ κ ω → Bool}
    (h : M.Exec C s tr s')
    (hstep : ∀ pre s₁ l s₂, M.Exec C s pre s₁ → C s₁ l → M.Step s₁ l s₂ →
      (p l).toNat + Ψ s₂ ≤ Ψ s₁) :
    tr.countP p + Ψ s' ≤ Ψ s := by
  induction h with
  | refl => simp
  | @step tr s₁ l s₂ hr hc hs ih =>
    have hpay := hstep _ _ _ _ hr hc hs
    rw [List.countP_append, List.countP_singleton]
    cases hl : p l <;> simp [hl] at hpay ⊢ <;> omega

end Interleaving
