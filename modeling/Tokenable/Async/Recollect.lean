import Tokenable.Async.Triple

/-!
# A variable that a function assigns as it goes

`recollect assign v p` runs `p` and returns how it ended, with the last value that a variable was
given. The variable starts with `v`, and `assign c` is the value it is given right before the
command `c`. A handler of the error can look at the variable as the function left it.
-/

namespace Async

namespace Prog
variable {C : Type} {R : C → Type} {ε ε' α β V : Type}

def recollect (assign : C → Option V) : V → Prog C R ε α → Prog C R ε' (V × Except ε α)
  | v, ret r => ret (.ok (v, r))
  | v, call c next => call c fun r => recollect assign ((assign c).getD v) (next r)

/-- The second part of a sequence starts with the variable as the first has left it. -/
theorem recollect_bind (assign : C → Option V) (v : V) (p : Prog C R ε α) (f : α → Prog C R ε β) :
    (recollect assign v (p >>= f) : Prog C R ε' (V × Except ε β)) =
      (recollect assign v p : Prog C R ε' (V × Except ε α)) >>= fun last =>
        match last.2 with
        | .ok a => recollect assign last.1 (f a)
        | .error e => ret (.ok (last.1, .error e)) := by
  induction p generalizing v with
  | ret r => cases r <;> rfl
  | call c next ih =>
    change call c (fun r => recollect assign _ ((next r).settle (onOk f))) = call c _
    congr 1
    funext r
    exact ih r _

end Prog

variable {σ X C : Type} {R : C → Type} {ε ε' α β V : Type} {H : Handler σ X C R} {Ok : Allowed σ C}
  {Γ : Contract σ}

/-- `Triple` for a function that assigns to a variable: `G` holds of the variable at the end,
however the function ends. -/
def Tracks (H : Handler σ X C R) (Ok : Allowed σ C) (Γ : Contract σ) (assign : C → Option V)
    (G : V → σ → Prop) (K : σ → Prop) (p : Prog C R ε α) (F : α → σ → Prop) : Prop :=
  ∀ i s v, K s → G v s → wp H Ok Γ i (p.recollect assign v : Prog C R ε (V × Except ε α))
    (fun r t => ∀ last, r = .ok last → G last.1 t ∧ ∀ a, last.2 = .ok a → F a t) s

variable {assign : C → Option V} {G : V → σ → Prop} {K : σ → Prop} {F : α → σ → Prop}
  {F₂ : β → σ → Prop}

/-- Each assigned value has what is known of it where it is assigned. -/
theorem tracks_of_triple {P : C → Prop} {p : Prog C R ε α} (hG : ∀ v, Γ.Persistent (G v))
    (hK : Γ.Persistent K) (hp : p.Issues P)
    (hassign : ∀ c w t, P c → K t → assign c = some w → G w t) (h : Triple H Ok Γ K p F) :
    Tracks H Ok Γ assign G K p F := by
  intro i s v hs hv
  have hwp := h i s hs
  clear h
  induction p generalizing v s with
  | ret r =>
    intro last hlast
    obtain rfl := Except.ok.inj hlast
    exact ⟨hv, hwp⟩
  | call c next ih =>
    intro t hst ht hok x r u hu
    obtain ⟨hinv, hguar, hnext⟩ := hwp t hst ht hok x r u hu
    have hKt : K t := hK i s t (.inl hst) hs
    refine ⟨hinv, hguar, ih r (hp.2 r) u _ (hK i t u (.inr hguar) hKt) ?_ hnext⟩
    cases hc : assign c with
    | none => exact hG v i t u (.inr hguar) (hG v i s t (.inl hst) hv)
    | some w => exact hG w i t u (.inr hguar) (hassign c w t hp.1 hKt hc)

theorem tracks_conseq {K' : σ → Prop} {F' : α → σ → Prop} {p : Prog C R ε α}
    (h : Tracks H Ok Γ assign G K p F) (hK : ∀ s, K' s → K s) (hF : ∀ a s, F a s → F' a s) :
    Tracks H Ok Γ assign G K' p F' := by
  intro i s v hs hv
  refine wp_mono (fun r t hr last hlast => ?_) (h i s v (hK s hs) hv)
  exact ⟨(hr last hlast).1, fun a ha => hF a t ((hr last hlast).2 a ha)⟩

/-- A fact that does not depend on the state is known to the program. -/
theorem tracks_of_fact {c : Prop} {p : Prog C R ε α} (h : c → Tracks H Ok Γ assign G K p F) :
    Tracks H Ok Γ assign G (fun s => c ∧ K s) p F := fun i s v hs => h hs.1 i s v hs.2

theorem tracks_seq {p : Prog C R ε α} {f : α → Prog C R ε β} (hK : Γ.Persistent K)
    (hp : Tracks H Ok Γ assign G K p F)
    (hf : ∀ a, Tracks H Ok Γ assign G (fun s => F a s ∧ K s) (f a) F₂) :
    Tracks H Ok Γ assign G K (p >>= f) F₂ := by
  intro i s v hs hv
  rw [Prog.recollect_bind]
  refine wp_bind (wp_mono (fun r t hr => ?_) (wp_frame hK (hp i s v hs hv) hs))
  cases r with
  | error e =>
    intro last hlast
    cases hlast
  | ok last =>
    obtain ⟨hlast, hKt⟩ := hr
    obtain ⟨hG, hF⟩ := hlast last rfl
    obtain ⟨w, o⟩ := last
    cases o with
    | ok a => exact hf a i t w ⟨hF a rfl, hKt⟩ hG
    | error e =>
      intro last' hlast'
      obtain rfl := Except.ok.inj hlast'
      exact ⟨hG, fun a ha => by cases ha⟩

/-- The handler of the error may look at the variable. -/
theorem triple_recollect {p : Prog C R ε α} {v : V} {k : V × Except ε α → Prog C R ε β}
    (hp : Tracks H Ok Γ assign G K p F)
    (hok : ∀ w a, Triple H Ok Γ (F a) (k (w, .ok a)) F₂)
    (herr : ∀ w e, Triple H Ok Γ (G w) (k (w, .error e)) F₂) :
    Triple H Ok Γ (fun s => K s ∧ G v s)
      ((p.recollect assign v : Prog C R ε (V × Except ε α)) >>= k) F₂ := by
  intro i s hs
  refine wp_bind (wp_mono (fun r t hr => ?_) (hp i s v hs.1 hs.2))
  cases r with
  | error e => exact fun b hb => by cases hb
  | ok last =>
    obtain ⟨hG, hF⟩ := hr last rfl
    obtain ⟨w, o⟩ := last
    cases o with
    | ok a => exact hok w a i t (hF a rfl)
    | error e => exact herr w e i t hG

end Async
