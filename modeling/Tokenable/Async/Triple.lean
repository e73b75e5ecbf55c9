import Tokenable.Async.RelyGuarantee

/-!
# Triples for functions that run among others

`Triple K p F` says that `p`, started where `K` holds, keeps the contract at every command, whoever
runs in between, and that `F` holds of its result if it succeeds. A persistent assertion is one
that no step of any task can undo, such as a fact about the past. The frame rule carries it over a
function, and the rules for `catch` may use it where the function has failed.
-/

namespace Async

variable {σ X C : Type} {R : C → Type} {ε ε' α β : Type}

/-- No step of a task that keeps the contract undoes the assertion. -/
def Contract.Persistent (Γ : Contract σ) (K : σ → Prop) : Prop :=
  ∀ i s t, Γ.rely i s t ∨ Γ.guar i s t → K s → K t

def Triple (H : Handler σ X C R) (Ok : Allowed σ C) (Γ : Contract σ) (K : σ → Prop)
    (p : Prog C R ε α) (F : α → σ → Prop) : Prop :=
  ∀ i s, K s → wp H Ok Γ i p (fun r t => ∀ a, r = .ok a → F a t) s

variable {H : Handler σ X C R} {Ok : Allowed σ C} {Γ : Contract σ} {K K' G : σ → Prop}
  {F F' : α → σ → Prop} {F₂ : β → σ → Prop}

theorem persistent_const (c : Prop) : Γ.Persistent (fun _ => c) := fun _ _ _ _ h => h

theorem persistent_and (hK : Γ.Persistent K) (hG : Γ.Persistent G) :
    Γ.Persistent (fun s => K s ∧ G s) :=
  fun i s t hst h => ⟨hK i s t hst h.1, hG i s t hst h.2⟩

theorem wp_frame {i : ℕ} {p : Prog C R ε α} {Q : Except ε α → σ → Prop} {s : σ}
    (hG : Γ.Persistent G) (hp : wp H Ok Γ i p Q s) (hs : G s) :
    wp H Ok Γ i p (fun r t => Q r t ∧ G t) s := by
  induction p generalizing s with
  | ret r => exact ⟨hp, hs⟩
  | call c next ih =>
    intro t hst ht hok x r u hu
    obtain ⟨hinv, hguar, hnext⟩ := hp t hst ht hok x r u hu
    have hGu : G u := hG i t u (.inr hguar) (hG i s t (.inl hst) hs)
    exact ⟨hinv, hguar, ih r hnext hGu⟩

theorem triple_conseq {p : Prog C R ε α} (h : Triple H Ok Γ K p F) (hK : ∀ s, K' s → K s)
    (hF : ∀ a s, F a s → F' a s) : Triple H Ok Γ K' p F' := by
  intro i s hs
  exact wp_mono (fun r t hr a ha => hF a t (hr a ha)) (h i s (hK s hs))

theorem triple_or {p : Prog C R ε α} (hK : Triple H Ok Γ K p F) (hK' : Triple H Ok Γ K' p F) :
    Triple H Ok Γ (fun s => K s ∨ K' s) p F := fun i s hs => hs.elim (hK i s) (hK' i s)

/-- A fact that does not depend on the state is known to the program. -/
theorem triple_of_fact {c : Prop} {p : Prog C R ε α} (h : c → Triple H Ok Γ (fun _ => True) p F) :
    Triple H Ok Γ (fun _ => c) p F := fun i s hc => h hc i s trivial

theorem triple_ok {a : α} (h : ∀ s, K s → F a s) :
    Triple H Ok Γ K (.ret (.ok a) : Prog C R ε α) F := by
  intro i s hs b hb
  obtain rfl := Except.ok.inj hb
  exact h s hs

theorem triple_error {e : ε} : Triple H Ok Γ K (.ret (.error e) : Prog C R ε α) F := by
  intro i s hs b hb
  cases hb

/-- A value that is already computed. -/
theorem triple_ret {r : Except ε α} (h : ∀ a, r = .ok a → ∀ s, K s → F a s) :
    Triple H Ok Γ K (.ret r : Prog C R ε α) F := by
  cases r with
  | ok a => exact triple_ok (h a rfl)
  | error e => exact triple_error

theorem triple_throwIf {b : Bool} {e : ε} (h : b = false → ∀ s, K s → G s) :
    Triple H Ok Γ K (Prog.throwIf b e : Prog C R ε Unit) (fun _ => G) := by
  cases b with
  | true => exact triple_error
  | false => exact triple_ok (h rfl)

theorem triple_orThrow {o : Option α} {e : ε} (h : ∀ a, o = some a → ∀ s, K s → F a s) :
    Triple H Ok Γ K (Prog.orThrow e o : Prog C R ε α) F := by
  cases o with
  | none => exact triple_error
  | some a => exact triple_ok (h a rfl)

theorem triple_bind {p : Prog C R ε α} {f : α → Prog C R ε β} (hp : Triple H Ok Γ K p F)
    (hf : ∀ a, Triple H Ok Γ (F a) (f a) F₂) : Triple H Ok Γ K (p >>= f) F₂ := by
  intro i s hs
  refine wp_bind (wp_mono (fun r t hr => ?_) (hp i s hs))
  cases r with
  | ok a => exact hf a i t (hr a rfl)
  | error e => exact fun a ha => by cases ha

theorem triple_frame {p : Prog C R ε α} (hG : Γ.Persistent G) (hp : Triple H Ok Γ K p F) :
    Triple H Ok Γ (fun s => K s ∧ G s) p (fun a s => F a s ∧ G s) := by
  intro i s hs
  exact wp_mono (fun r t hr a ha => ⟨hr.1 a ha, hr.2⟩) (wp_frame hG (hp i s hs.1) hs.2)

/-- Sequencing, with what is persistent still known afterwards. -/
theorem triple_seq {p : Prog C R ε α} {f : α → Prog C R ε β} (hK : Γ.Persistent K)
    (hp : Triple H Ok Γ K p F) (hf : ∀ a, Triple H Ok Γ (fun s => F a s ∧ K s) (f a) F₂) :
    Triple H Ok Γ K (p >>= f) F₂ := by
  intro i s hs
  exact triple_bind (triple_frame hK hp) hf i s ⟨hs, hs⟩

/-- Both outcomes are handled; what is persistent is still known after a failure. -/
theorem triple_settle {p : Prog C R ε α} {k : Except ε α → Prog C R ε' β} (hK : Γ.Persistent K)
    (hp : Triple H Ok Γ K p F) (hok : ∀ a, Triple H Ok Γ (F a) (k (.ok a)) F₂)
    (herr : ∀ e, Triple H Ok Γ K (k (.error e)) F₂) : Triple H Ok Γ K (p.settle k) F₂ := by
  intro i s hs
  refine wp_settle (wp_mono (fun r t hr => ?_) (wp_frame hK (hp i s hs) hs))
  cases r with
  | ok a => exact hok a i t (hr.1 a rfl)
  | error e => exact herr e i t hr.2

/-- A program whose commands keep the contract keeps what is persistent. -/
theorem triple_of_issues {P : C → Prop} {p : Prog C R ε α} (hK : Γ.Persistent K)
    (hstep : ∀ c, P c → ∀ i t x r u, Γ.inv t → Ok i t c → H i t x c = some (r, u) →
      Γ.inv u ∧ Γ.guar i t u) (hp : p.Issues P) : Triple H Ok Γ K p (fun _ => K) := by
  intro i s hs
  have hstable : Γ.Stable i K := fun t u htu _ => hK i t u (.inl htu)
  refine wp_mono (fun r t ht a _ => ht) (wp_of_issues hstable ?_ hp hs)
  intro c hc t x r u ht hKt hok hu
  obtain ⟨hinv, hguar⟩ := hstep c hc i t x r u ht hok hu
  exact ⟨hinv, hguar, hK i t u (.inr hguar) hKt⟩

/-- One command. -/
theorem triple_call {c : C} {next : R c → Prog C R ε α} (hK : Γ.Persistent K)
    (h : ∀ i t, Γ.inv t → K t → Ok i t c → ∀ x r u, H i t x c = some (r, u) →
      Γ.inv u ∧ Γ.guar i t u ∧ wp H Ok Γ i (next r) (fun r t => ∀ a, r = .ok a → F a t) u) :
    Triple H Ok Γ K (.call c next : Prog C R ε α) F := by
  intro i s hs t hst ht hok x r u hu
  exact h i t ht (hK i s t (.inl hst) hs) hok x r u hu

end Async
