import Tokenable.Async.Memo

/-!
# Loads that the readers of a key share

A `Desk` is a cache in front of loads: a reader takes the stored value of its key, joins the load
that is in flight for it, or starts one. `Sound P` says that only values satisfying `P` are stored
or loaded, and that the load in flight of a key is its only unsettled one. Each operation keeps
this. `settled` lists the loads in the order in which they settled: a load that a reader waits for
settles after the reader has come.
-/

namespace Async

structure Load (K V : Type) where
  key : K
  owner : ℕ
  outcome : Option V := none

structure Desk (K V : Type) where
  memo : Memo K V := Memo.empty
  loads : List (Load K V) := []
  settled : List ℕ := []

/-- How a reader goes on. -/
inductive Seat (V : Type) where
  | hit (value : V)
  | joined (load : ℕ)
  | started (load : ℕ)

namespace Desk

variable {K V : Type}

section
variable [DecidableEq K]

/-- Task `i` reads the key, from the cache if it may. -/
def enter (d : Desk K V) (now : ℤ) (mayHit : Bool) (i : ℕ) (key : K) : Seat V × Desk K V :=
  match (if mayHit then d.memo.hit now key else none) with
  | some v => (.hit v, d)
  | none =>
    match d.memo.inflight key with
    | some w => (.joined w, d)
    | none =>
      (.started d.loads.length,
        { d with
          memo := d.memo.share key d.loads.length
          loads := d.loads ++ [⟨key, i, none⟩] })

/-- The load settles, and is no longer in flight. -/
def finish (d : Desk K V) (w : ℕ) (key : K) (v : V) : Desk K V where
  memo := { d.memo with inflight := Function.update d.memo.inflight key none }
  loads := d.loads.modify w fun load => { load with outcome := some v }
  settled := d.settled ++ [w]

def store (d : Desk K V) (key : K) (e : Cached V) : Desk K V :=
  { d with memo := d.memo.store key e }

/-- Forget the stored values of the keys that satisfy `p`; their loads go on. -/
def forget (d : Desk K V) (p : K → Bool) : Desk K V :=
  { d with memo := { d.memo with cache := fun key => if p key then none else d.memo.cache key } }

end

def outcome (d : Desk K V) (w : ℕ) : Option V := (d.loads[w]?).bind Load.outcome

def Open (d : Desk K V) (w : ℕ) (key : K) : Prop :=
  ∃ load, d.loads[w]? = some load ∧ load.key = key ∧ load.outcome = none

structure Sound (C : K → Cached V → Prop) (P : K → V → Prop) (d : Desk K V) : Prop where
  cached : ∀ key e, d.memo.cache key = some e → C key e
  inflight : ∀ key w, d.memo.inflight key = some w ↔ d.Open w key
  loaded : ∀ (w : ℕ) (load : Load K V) (v : V), d.loads[w]? = some load →
    load.outcome = some v → P load.key v ∧ w ∈ d.settled
  closed : ∀ w ∈ d.settled, ∃ load, d.loads[w]? = some load ∧ load.outcome ≠ none

/-- The loads stay, and settled ones and those of the owners in `fixed` keep their outcome. -/
structure Evolves (fixed : ℕ → Prop) (d d' : Desk K V) : Prop where
  settled : d.settled <+: d'.settled
  kept : ∀ (w : ℕ) (load : Load K V), d.loads[w]? = some load →
    ∃ load', d'.loads[w]? = some load' ∧ load'.key = load.key ∧ load'.owner = load.owner ∧
      (fixed load.owner ∨ load.outcome ≠ none → load'.outcome = load.outcome)

/-- The load is of the key and was not among the first `n` that settled. -/
structure Awaited (d : Desk K V) (n w : ℕ) (key : K) : Prop where
  mark : n ≤ d.settled.length
  late : w ∉ d.settled.take n
  load : ∃ load, d.loads[w]? = some load ∧ load.key = key

/-- A load of the key that settled after the first `n` has the value. -/
def Delivered (d : Desk K V) (n : ℕ) (key : K) (v : V) : Prop :=
  n ≤ d.settled.length ∧
    ∃ w ∈ d.settled.drop n, ∃ load, d.loads[w]? = some load ∧ load.key = key ∧
      load.outcome = some v

section Evolution
variable {fixed fixed' : ℕ → Prop} {d d' d'' : Desk K V}

theorem Evolves.refl (fixed : ℕ → Prop) (d : Desk K V) : Evolves fixed d d :=
  ⟨List.prefix_refl _, fun _ load h => ⟨load, h, rfl, rfl, fun _ => rfl⟩⟩

theorem evolves_of_loads (fixed : ℕ → Prop) (hloads : d'.loads = d.loads)
    (hsettled : d'.settled = d.settled) : Evolves fixed d d' := by
  refine ⟨hsettled ▸ List.prefix_refl _, fun w load hw => ⟨load, ?_, rfl, rfl, fun _ => rfl⟩⟩
  rw [hloads, hw]

theorem Evolves.trans (h : Evolves fixed d d') (h' : Evolves fixed d' d'') :
    Evolves fixed d d'' := by
  refine ⟨h.settled.trans h'.settled, fun w load hw => ?_⟩
  obtain ⟨load', hw', hkey, howner, hout⟩ := h.kept w load hw
  obtain ⟨load'', hw'', hkey', howner', hout'⟩ := h'.kept w load' hw'
  refine ⟨load'', hw'', hkey'.trans hkey, howner'.trans howner, fun hfixed => ?_⟩
  have hsame := hout hfixed
  rw [← hsame]
  apply hout'
  rw [howner, hsame]
  exact hfixed

theorem Evolves.mono (hfixed : ∀ i, fixed' i → fixed i) (h : Evolves fixed d d') :
    Evolves fixed' d d' := by
  refine ⟨h.settled, fun w load hw => ?_⟩
  obtain ⟨load', hw', hkey, howner, hout⟩ := h.kept w load hw
  exact ⟨load', hw', hkey, howner, fun hf => hout (hf.imp_left (hfixed _))⟩

theorem Awaited.evolves {n w : ℕ} {key : K} (h : d.Awaited n w key) (hd : Evolves fixed d d') :
    d'.Awaited n w key := by
  obtain ⟨load, hw, hkey⟩ := h.load
  obtain ⟨load', hw', hkey', -⟩ := hd.kept w load hw
  obtain ⟨rest, hrest⟩ := hd.settled
  refine ⟨Nat.le_trans h.mark hd.settled.length_le, ?_, load', hw', hkey'.trans hkey⟩
  rw [← hrest, List.take_append_of_le_length h.mark]
  exact h.late

theorem Delivered.evolves {n : ℕ} {key : K} {v : V} (h : d.Delivered n key v)
    (hd : Evolves fixed d d') : d'.Delivered n key v := by
  obtain ⟨hn, w, hmem, load, hw, hkey, hout⟩ := h
  obtain ⟨load', hw', hkey', -, hout'⟩ := hd.kept w load hw
  obtain ⟨rest, hrest⟩ := hd.settled
  refine ⟨Nat.le_trans hn hd.settled.length_le, w, ?_, load', hw', hkey'.trans hkey, ?_⟩
  · rw [← hrest, List.drop_append_of_le_length hn]
    exact List.mem_append_left _ hmem
  · have hne : load.outcome ≠ none := by
      rw [hout]
      exact Option.some_ne_none v
    rw [hout' (.inr hne), hout]

theorem owned_evolves {i w : ℕ} {key : K} (h : d.loads[w]? = some ⟨key, i, none⟩)
    (hd : Evolves (· = i) d d') : d'.loads[w]? = some ⟨key, i, none⟩ := by
  obtain ⟨⟨key', i', out'⟩, hw', hkey, howner, hout⟩ := hd.kept w _ h
  have hnone := hout (.inl rfl)
  dsimp only at hkey howner hnone
  rw [hw', hkey, howner, hnone]

end Evolution

section Operations
variable {C C' : K → Cached V → Prop} {P P' : K → V → Prop} {d : Desk K V}

theorem sound_empty : Sound C P ({} : Desk K V) := by
  constructor
  · intro key e he
    cases he
  · intro key w
    constructor
    · intro h
      cases h
    · rintro ⟨load, hload, -⟩
      cases hload
  · intro w load v hload
    cases hload
  · intro w hw
    cases hw

theorem Sound.mono (hC : ∀ key e, C key e → C' key e) (hP : ∀ key v, P key v → P' key v)
    (h : d.Sound C P) : d.Sound C' P' where
  cached key e he := hC key e (h.cached key e he)
  inflight := h.inflight
  loaded w load v hw hv := ⟨hP load.key v (h.loaded w load v hw hv).1, (h.loaded w load v hw hv).2⟩
  closed := h.closed

/-- No two loads of a key are in flight. -/
theorem Sound.single {w w' : ℕ} {key : K} (h : d.Sound C P) (hw : d.Open w key)
    (hw' : d.Open w' key) : w = w' := by
  have hsome := (h.inflight key w).mpr hw
  rw [(h.inflight key w').mpr hw'] at hsome
  exact (Option.some.inj hsome).symm

theorem Sound.not_settled {w : ℕ} {key : K} (h : d.Sound C P) (hw : d.Open w key) :
    w ∉ d.settled := by
  intro hmem
  obtain ⟨load, hload, -, hnone⟩ := hw
  obtain ⟨load', hload', hsome⟩ := h.closed w hmem
  rw [hload] at hload'
  obtain rfl := Option.some.inj hload'
  exact hsome hnone

theorem Sound.awaited {w : ℕ} {key : K} (h : d.Sound C P) (hw : d.Open w key) :
    d.Awaited d.settled.length w key := by
  have hnot := h.not_settled hw
  obtain ⟨load, hload, hkey, -⟩ := hw
  refine ⟨Nat.le_refl _, ?_, load, hload, hkey⟩
  rwa [List.take_length]

/-- What a reader that waits for a load gets. -/
theorem Sound.delivered {n w : ℕ} {key : K} {v : V} (h : d.Sound C P) (hw : d.Awaited n w key)
    (hv : d.outcome w = some v) : P key v ∧ d.Delivered n key v := by
  obtain ⟨load, hload, rfl⟩ := hw.load
  rw [outcome, hload] at hv
  obtain ⟨hP, hmem⟩ := h.loaded w load v hload hv
  refine ⟨hP, hw.mark, w, ?_, load, hload, rfl, hv⟩
  rw [← List.take_append_drop n d.settled] at hmem
  exact (List.mem_append.mp hmem).resolve_left hw.late

theorem Sound.forget {p : K → Bool} (hC : ∀ key e, p key = false → C key e → C' key e)
    (h : d.Sound C P) : (d.forget p).Sound C' P := by
  refine ⟨fun key e he => ?_, h.inflight, h.loaded, h.closed⟩
  simp only [Desk.forget] at he
  split_ifs at he with hp
  exact hC key e (Bool.eq_false_iff.mpr hp) (h.cached key e he)

variable [DecidableEq K]

theorem Sound.store {key : K} {e : Cached V} (he : C key e) (h : d.Sound C P) :
    (d.store key e).Sound C P := by
  refine ⟨fun k e' he' => ?_, h.inflight, h.loaded, h.closed⟩
  by_cases hk : k = key
  · subst hk
    have hsame : (d.store k e).memo.cache k = some e := Function.update_self ..
    rw [hsame] at he'
    rw [← Option.some.inj he']
    exact he
  · have hother : (d.store key e).memo.cache k = d.memo.cache k := Function.update_of_ne hk ..
    rw [hother] at he'
    exact h.cached k e' he'

/-- Starting a load where none is in flight. -/
theorem Sound.start {key : K} (h : d.Sound C P) (hnone : d.memo.inflight key = none) (i : ℕ) :
    Sound C P { d with
      memo := d.memo.share key d.loads.length
      loads := d.loads ++ [⟨key, i, none⟩] } := by
  have hopen : ∀ k w, Open { d with
        memo := d.memo.share key d.loads.length
        loads := d.loads ++ [⟨key, i, none⟩] } w k ↔
      d.Open w k ∨ (w = d.loads.length ∧ k = key) := by
    intro k w
    constructor
    · rintro ⟨load, hload, hkey, hout⟩
      by_cases hlt : w < d.loads.length
      · rw [List.getElem?_append_left hlt] at hload
        exact .inl ⟨load, hload, hkey, hout⟩
      · rw [List.getElem?_append_right (Nat.le_of_not_lt hlt)] at hload
        have hlen := (List.getElem?_eq_some_iff.mp hload).1
        rw [List.length_singleton] at hlen
        have hw : w = d.loads.length := by omega
        subst hw
        rw [Nat.sub_self] at hload
        obtain rfl := Option.some.inj hload
        exact .inr ⟨rfl, hkey.symm⟩
    · rintro (⟨load, hload, hkey, hout⟩ | ⟨rfl, rfl⟩)
      · have hlt := (List.getElem?_eq_some_iff.mp hload).1
        exact ⟨load, by rw [List.getElem?_append_left hlt]; exact hload, hkey, hout⟩
      · exact ⟨⟨k, i, none⟩, List.getElem?_concat_length .., rfl, rfl⟩
  refine ⟨h.cached, fun k w => ?_, fun w load v hload hv => ?_, fun w hw => ?_⟩
  · rw [hopen]
    by_cases hk : k = key
    · subst hk
      have hself : (d.memo.share k d.loads.length).inflight k = some d.loads.length :=
        Function.update_self ..
      have hclosed : ¬ d.Open w k := by
        intro hw
        rw [(h.inflight k w).mpr hw] at hnone
        cases hnone
      rw [hself]
      constructor
      · intro heq
        exact .inr ⟨(Option.some.inj heq).symm, rfl⟩
      · rintro (hw | ⟨rfl, -⟩)
        · exact absurd hw hclosed
        · rfl
    · have hother : (d.memo.share key d.loads.length).inflight k = d.memo.inflight k :=
        Function.update_of_ne hk ..
      rw [hother, h.inflight]
      constructor
      · exact .inl
      · rintro (hw | ⟨-, rfl⟩)
        · exact hw
        · exact absurd rfl hk
  · rcases List.mem_append.mp (List.mem_of_getElem? hload) with hmem | hmem
    · by_cases hlt : w < d.loads.length
      · rw [List.getElem?_append_left hlt] at hload
        exact h.loaded w load v hload hv
      · rw [List.getElem?_append_right (Nat.le_of_not_lt hlt)] at hload
        rw [List.mem_singleton.mp (List.mem_of_getElem? hload)] at hv
        cases hv
    · rw [List.mem_singleton.mp hmem] at hv
      cases hv
  · obtain ⟨load, hload, hsome⟩ := h.closed w hw
    have hlt := (List.getElem?_eq_some_iff.mp hload).1
    exact ⟨load, by rw [List.getElem?_append_left hlt]; exact hload, hsome⟩

theorem evolves_start (fixed : ℕ → Prop) (key : K) (i : ℕ) :
    Evolves fixed d { d with
      memo := d.memo.share key d.loads.length
      loads := d.loads ++ [⟨key, i, none⟩] } := by
  refine ⟨List.prefix_refl _, fun w load hw => ⟨load, ?_, rfl, rfl, fun _ => rfl⟩⟩
  rw [List.getElem?_append_left (List.getElem?_eq_some_iff.mp hw).1]
  exact hw

/-- What a reader of the key knows when it has looked: the stored value was in the cache and not
expired, or the load it waits for had not settled. -/
def Seated (C : K → Cached V → Prop) (now : ℤ) (mayHit : Bool) (i n : ℕ) (key : K)
    (d : Desk K V) : Seat V → Prop
  | .hit v => mayHit = true ∧ ∃ e, C key e ∧ e.value = v ∧ now < e.expiresAtMs
  | .joined w => d.Awaited n w key
  | .started w => d.Awaited n w key ∧ d.loads[w]? = some ⟨key, i, none⟩

theorem enter_spec (h : d.Sound C P) (now : ℤ) (mayHit : Bool) (i : ℕ) (key : K) :
    (d.enter now mayHit i key).2.Sound C P ∧
      (∀ fixed, Evolves fixed d (d.enter now mayHit i key).2) ∧
      Seated C now mayHit i d.settled.length key (d.enter now mayHit i key).2
        (d.enter now mayHit i key).1 := by
  unfold enter
  split
  · rename_i v hv
    refine ⟨h, fun fixed => Evolves.refl fixed d, ?_⟩
    cases mayHit with
    | false => cases hv
    | true =>
      obtain ⟨e, he, rfl⟩ := Option.map_eq_some_iff.mp hv
      obtain ⟨hcache, hlive⟩ := Option.filter_eq_some_iff.mp he
      exact ⟨rfl, e, h.cached key e hcache, rfl, of_decide_eq_true hlive⟩
  · split
    · rename_i w hw
      exact ⟨h, fun fixed => Evolves.refl fixed d, h.awaited ((h.inflight key w).mp hw)⟩
    · rename_i hnone
      have hnew := h.start hnone i
      have hself : (d.loads ++ [⟨key, i, none⟩])[d.loads.length]? = some ⟨key, i, none⟩ :=
        List.getElem?_concat_length ..
      exact ⟨hnew, fun fixed => evolves_start fixed key i,
        hnew.awaited ⟨_, hself, rfl, rfl⟩, hself⟩

theorem finish_spec {w i : ℕ} {key : K} {v : V} (h : d.Sound C P)
    (hw : d.loads[w]? = some ⟨key, i, none⟩) (hv : P key v) :
    (d.finish w key v).Sound C P ∧ Evolves (· ≠ i) d (d.finish w key v) ∧
      (d.finish w key v).outcome w = some v := by
  have hload : ∀ u, (d.finish w key v).loads[u]? =
      if u = w then some ⟨key, i, some v⟩ else d.loads[u]? := by
    intro u
    simp only [finish]
    rw [List.getElem?_modify]
    by_cases hu : u = w
    · subst hu
      rw [hw, if_pos rfl]
      simp
    · rw [if_neg hu]
      cases d.loads[u]? with
      | none => rfl
      | some load => simp [Ne.symm hu]
  have hopen : ∀ k u, (d.finish w key v).Open u k ↔ d.Open u k ∧ u ≠ w := by
    intro k u
    unfold Open
    rw [hload]
    by_cases hu : u = w
    · rw [if_pos hu]
      constructor
      · rintro ⟨load, hsome, -, hnone⟩
        obtain rfl := Option.some.inj hsome
        cases hnone
      · exact fun h => absurd hu h.2
    · rw [if_neg hu]
      exact ⟨fun h => ⟨h, hu⟩, fun h => h.1⟩
  have howned : d.Open w key := ⟨_, hw, rfl, rfl⟩
  refine ⟨⟨h.cached, fun k u => ?_, fun u load x hu hx => ?_, fun u hu => ?_⟩, ⟨?_, ?_⟩, ?_⟩
  · rw [hopen]
    by_cases hk : k = key
    · subst hk
      have hself : (d.finish w k v).memo.inflight k = none := Function.update_self ..
      rw [hself]
      constructor
      · intro heq
        cases heq
      · rintro ⟨hu, hne⟩
        exact absurd (h.single hu howned) hne
    · have hother : (d.finish w key v).memo.inflight k = d.memo.inflight k :=
        Function.update_of_ne hk ..
      rw [hother, h.inflight]
      constructor
      · intro hu
        refine ⟨hu, ?_⟩
        rintro rfl
        obtain ⟨load, hsome, hkey, -⟩ := hu
        rw [hw] at hsome
        obtain rfl := Option.some.inj hsome
        exact hk hkey.symm
      · exact fun hu => hu.1
  · rw [hload] at hu
    simp only [finish]
    split_ifs at hu with heq
    · obtain rfl := Option.some.inj hu
      obtain rfl := Option.some.inj hx
      exact ⟨hv, List.mem_append_right _ (List.mem_singleton.mpr heq)⟩
    · obtain ⟨hP, hmem⟩ := h.loaded u load x hu hx
      exact ⟨hP, List.mem_append_left _ hmem⟩
  · rw [hload]
    split_ifs with heq
    · exact ⟨_, rfl, Option.some_ne_none v⟩
    · rcases List.mem_append.mp hu with hu | hu
      · exact h.closed u hu
      · exact absurd (List.mem_singleton.mp hu) heq
  · exact List.prefix_append _ _
  · intro u load hu
    rw [hload]
    split_ifs with heq
    · subst heq
      rw [hw] at hu
      obtain rfl := Option.some.inj hu
      refine ⟨_, rfl, rfl, rfl, ?_⟩
      rintro (hne | hne)
      · exact absurd rfl hne
      · exact absurd rfl hne
    · exact ⟨load, hu, rfl, rfl, fun _ => rfl⟩
  · rw [outcome, hload, if_pos rfl]
    rfl

end Operations

end Desk
end Async
