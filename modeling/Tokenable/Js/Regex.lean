import Tokenable.Js.Text

/-!
# Regular expressions

The part of JavaScript's regular expressions that the services use: character classes, sequences,
alternatives, greedy repetition, the anchors and `\b`. `ends r p` lists the places at which a match
that begins at `p` can end, in the order in which a backtracking matcher tries them, so that the
head of a list is the match that `exec` reports. Patterns with the flag `i` are written in lower
case and run on the lowered text.
-/

namespace Js

/-- A place in a text: the character before it and the text after it. -/
abbrev Place := Option Char × JsStr

inductive Regex where
  | empty
  | char (p : Char → Bool)
  | seq (r s : Regex)
  | alt (r s : Regex)
  | star (r : Regex)
  | boundary
  | start
  | stop

def isWordChar (c : Char) : Bool := c.isAlphanum || c = '_'

/-- `\b` holds between a word character and anything else. -/
def Place.atBoundary (p : Place) : Bool := p.1.any isWordChar != p.2.head?.any isWordChar

/-- Greedy repetition of a step that moves forward, at most `n` times. -/
def repeated (step : Place → List Place) : ℕ → Place → List Place
  | 0, p => [p]
  | n + 1, p =>
    ((step p).filter fun q => q.2.length < p.2.length).flatMap (repeated step n) ++ [p]

namespace Regex

def ends : Regex → Place → List Place
  | empty, p => [p]
  | char f, (_, c :: rest) => if f c then [(some c, rest)] else []
  | char _, (_, []) => []
  | seq r s, p => (r.ends p).flatMap s.ends
  | alt r s, p => r.ends p ++ s.ends p
  | star r, p => repeated r.ends p.2.length p
  | boundary, p => if p.atBoundary then [p] else []
  | start, p => if p.1.isNone then [p] else []
  | stop, p => if p.2.isEmpty then [p] else []

/-- The places of a text, from left to right. -/
def places : Option Char → JsStr → List Place
  | before, [] => [(before, [])]
  | before, c :: s => (before, c :: s) :: places (some c) s

/-- `r.test(s)` -/
def test (r : Regex) (s : JsStr) : Bool := (places none s).any fun p => !(r.ends p).isEmpty

/-- `r.test(s)` of a pattern with the flag `i`. -/
def testI (r : Regex) (s : JsStr) : Bool := r.test (lower s)

/-- The text of the group in the first match of `before(group)after`. -/
def group (before group after : Regex) (s : JsStr) : Option JsStr :=
  ((places none s).flatMap fun p => (before.ends p).flatMap fun q => (group.ends q).flatMap fun t =>
    (after.ends t).map fun _ => q.2.take (q.2.length - t.2.length)).head?

def seqs (rs : List Regex) : Regex := rs.foldr seq empty

def alts (rs : List Regex) : Regex := rs.foldr alt (char fun _ => false)

def opt (r : Regex) : Regex := alt r empty

def plus (r : Regex) : Regex := seq r (star r)

/-- `\s` -/
def space : Regex := char isSpace

/-- `\d` -/
def digit : Regex := char Char.isDigit

def literal (s : JsStr) : Regex := seqs (s.map fun c => char fun d => d = c)

def lit (s : String) : Regex := literal s.toList

/-- The words one after the other with `\s+` between them. -/
def spaced (ws : List String) : Regex := seqs ((ws.map lit).intersperse (plus space))

def oneOf (ws : List String) : Regex := alts (ws.map lit)

/-- `\br\b` -/
def word (r : Regex) : Regex := seqs [boundary, r, boundary]

/-- `^r$` -/
def whole (r : Regex) : Regex := seqs [start, r, stop]

section
variable {p q : Place} {r s t : Regex} {text : JsStr}

@[simp] theorem mem_ends_seq : q ∈ (seq r s).ends p ↔ ∃ m ∈ r.ends p, q ∈ s.ends m := by
  change q ∈ (r.ends p).flatMap s.ends ↔ _
  exact List.mem_flatMap

@[simp] theorem mem_ends_alt : q ∈ (alt r s).ends p ↔ q ∈ r.ends p ∨ q ∈ s.ends p := by
  change q ∈ r.ends p ++ s.ends p ↔ _
  exact List.mem_append

@[simp] theorem mem_ends_empty : q ∈ empty.ends p ↔ q = p := by
  change q ∈ [p] ↔ _
  exact List.mem_singleton

/-- The anchors stay where they are, if they match. -/
theorem mem_ite_singleton {b : Prop} [Decidable b] :
    q ∈ (if b then [p] else []) ↔ b ∧ q = p := by
  by_cases h : b
  · simp [h]
  · simp [h]

@[simp] theorem mem_ends_boundary : q ∈ boundary.ends p ↔ p.atBoundary = true ∧ q = p := by
  change q ∈ (if p.atBoundary then [p] else []) ↔ _
  exact mem_ite_singleton

@[simp] theorem mem_ends_start : q ∈ start.ends p ↔ p.1 = none ∧ q = p := by
  change q ∈ (if p.1.isNone then [p] else []) ↔ _
  rw [mem_ite_singleton, Option.isNone_iff_eq_none]

@[simp] theorem mem_ends_stop : q ∈ stop.ends p ↔ p.2 = [] ∧ q = p := by
  change q ∈ (if p.2.isEmpty then [p] else []) ↔ _
  rw [mem_ite_singleton, List.isEmpty_iff]

@[simp] theorem mem_ends_char {f : Char → Bool} :
    q ∈ (char f).ends p ↔ ∃ c, f c = true ∧ p.2 = c :: q.2 ∧ q.1 = some c := by
  obtain ⟨before, rest⟩ := p
  obtain ⟨last, left⟩ := q
  cases rest with
  | nil =>
    change (last, left) ∈ [] ↔ _
    simp
  | cons c rest =>
    change (last, left) ∈ (if f c then [(some c, rest)] else []) ↔ _
    rw [mem_ite_singleton]
    constructor
    · rintro ⟨hc, heq⟩
      obtain ⟨rfl, rfl⟩ := Prod.mk.inj heq
      exact ⟨c, hc, rfl, rfl⟩
    · rintro ⟨d, hd, hrest, hlast⟩
      obtain ⟨rfl, rfl⟩ := List.cons.inj hrest
      exact ⟨hd, Prod.ext hlast rfl⟩

theorem test_eq_true : r.test text = true ↔ ∃ p ∈ places none text, ∃ q, q ∈ r.ends p := by
  simp only [test, List.any_eq_true, Bool.not_eq_true', List.isEmpty_eq_false_iff_exists_mem]

theorem head_mem_places (before : Option Char) (text : JsStr) :
    (before, text) ∈ places before text := by
  cases text <;> simp [places]

/-- Only the first place has no character before it. -/
theorem eq_of_mem_places {before : Option Char} (h : p ∈ places before text) (hp : p.1 = none) :
    p = (before, text) := by
  have hlater : ∀ (text : JsStr) (c : Char), p ∉ places (some c) text := by
    intro text
    induction text with
    | nil =>
      intro c hmem
      obtain rfl := List.mem_singleton.mp hmem
      cases hp
    | cons d text ih =>
      intro c hmem
      rcases List.mem_cons.mp hmem with rfl | hmem
      · cases hp
      · exact ih d hmem
  cases text with
  | nil => exact List.mem_singleton.mp h
  | cons c text =>
    rcases List.mem_cons.mp h with heq | hmem
    · exact heq
    · exact absurd hmem (hlater text c)

theorem test_whole : (whole r).test text = true ↔ ∃ q ∈ r.ends (none, text), q.2 = [] := by
  rw [test_eq_true]
  constructor
  · rintro ⟨p, hp, q, hq⟩
    simp only [whole, seqs, List.foldr_cons, List.foldr_nil, mem_ends_seq, mem_ends_start,
      mem_ends_stop, mem_ends_empty] at hq
    obtain ⟨m, ⟨hnone, rfl⟩, n, hn, _, ⟨hnil, -⟩, -⟩ := hq
    exact ⟨n, eq_of_mem_places hp hnone ▸ hn, hnil⟩
  · rintro ⟨q, hq, hnil⟩
    refine ⟨(none, text), head_mem_places none text, q, ?_⟩
    simp only [whole, seqs, List.foldr_cons, List.foldr_nil, mem_ends_seq, mem_ends_start,
      mem_ends_stop, mem_ends_empty]
    exact ⟨_, ⟨trivial, rfl⟩, q, hq, q, ⟨hnil, rfl⟩, rfl⟩

theorem mem_ends_alts {rs : List Regex} : q ∈ (alts rs).ends p ↔ ∃ r ∈ rs, q ∈ r.ends p := by
  induction rs with
  | nil => simp [alts]
  | cons r rs ih =>
    have hcons : alts (r :: rs) = alt r (alts rs) := rfl
    rw [hcons, mem_ends_alt, ih]
    simp

/-- A pattern of whole texts matches more when it has more alternatives. -/
theorem test_whole_oneOf {w : String} {ws : List String} (hw : w ∈ ws)
    (h : (whole (lit w)).test text = true) : (whole (oneOf ws)).test text = true := by
  rw [test_whole] at h ⊢
  obtain ⟨q, hq, hnil⟩ := h
  exact ⟨q, mem_ends_alts.mpr ⟨lit w, List.mem_map_of_mem hw, hq⟩, hnil⟩

/-- A match of a literal is the literal. -/
theorem of_mem_ends_literal {w : JsStr} (h : q ∈ (literal w).ends p) : p.2 = w ++ q.2 := by
  induction w generalizing p with
  | nil =>
    have heq : q = p := mem_ends_empty.mp h
    rw [heq]
    rfl
  | cons c w ih =>
    have hseq : literal (c :: w) = seq (char fun d => d = c) (literal w) := rfl
    rw [hseq, mem_ends_seq] at h
    obtain ⟨m, hm, hq⟩ := h
    obtain ⟨d, hd, hrest, -⟩ := mem_ends_char.mp hm
    rw [hrest, ih hq, of_decide_eq_true hd]
    rfl

theorem suffix_of_mem_places {before : Option Char} (h : p ∈ places before text) : p.2 <:+ text := by
  induction text generalizing before with
  | nil =>
    obtain rfl := List.mem_singleton.mp h
    exact List.suffix_rfl
  | cons c text ih =>
    rcases List.mem_cons.mp h with rfl | h
    · exact List.suffix_rfl
    · exact (ih h).trans (List.suffix_cons c text)

theorem suffix_of_mem_repeated {step : Place → List Place} {n : ℕ}
    (hstep : ∀ p, ∀ q ∈ step p, q.2 <:+ p.2) (h : q ∈ repeated step n p) : q.2 <:+ p.2 := by
  induction n generalizing p with
  | zero =>
    obtain rfl := List.mem_singleton.mp h
    exact List.suffix_rfl
  | succ n ih =>
    rcases List.mem_append.mp h with h | h
    · obtain ⟨m, hm, hq⟩ := List.mem_flatMap.mp h
      exact (ih hq).trans (hstep p m (List.mem_filter.mp hm).1)
    · obtain rfl := List.mem_singleton.mp h
      exact List.suffix_rfl

/-- A match leaves a rest of the text. -/
theorem suffix_of_mem_ends (h : q ∈ r.ends p) : q.2 <:+ p.2 := by
  induction r generalizing p q with
  | empty =>
    obtain rfl := mem_ends_empty.mp h
    exact List.suffix_rfl
  | char f =>
    obtain ⟨c, -, hrest, -⟩ := mem_ends_char.mp h
    rw [hrest]
    exact List.suffix_cons c q.2
  | seq r s ihr ihs =>
    obtain ⟨m, hm, hq⟩ := mem_ends_seq.mp h
    exact (ihs hq).trans (ihr hm)
  | alt r s ihr ihs =>
    rcases mem_ends_alt.mp h with h | h
    · exact ihr h
    · exact ihs h
  | star r ih => exact suffix_of_mem_repeated (fun p q hq => ih hq) h
  | boundary =>
    obtain rfl := (mem_ends_boundary.mp h).2
    exact List.suffix_rfl
  | start =>
    obtain rfl := (mem_ends_start.mp h).2
    exact List.suffix_rfl
  | stop =>
    obtain rfl := (mem_ends_stop.mp h).2
    exact List.suffix_rfl

/-- A text with a group between two literals contains both, one after the other. -/
theorem count_le_of_group {v w word : JsStr} {a : Char}
    (h : group (literal v) r (literal w) text = some word) :
    v.count a + w.count a ≤ text.count a := by
  obtain ⟨p, hp, hmem⟩ := List.mem_flatMap.mp (List.mem_of_head? h)
  obtain ⟨q, hq, hmem⟩ := List.mem_flatMap.mp hmem
  obtain ⟨m, hm, hmem⟩ := List.mem_flatMap.mp hmem
  obtain ⟨e, he, -⟩ := List.mem_map.mp hmem
  have htext := (suffix_of_mem_places hp).sublist.count_le a
  have hword := (suffix_of_mem_ends hm).sublist.count_le a
  rw [of_mem_ends_literal hq, List.count_append] at htext
  rw [of_mem_ends_literal he, List.count_append] at hword
  omega

/-- A literal matches itself in one way. -/
theorem ends_literal (before : Option Char) (w rest : JsStr) :
    ∃ last, (literal w).ends (before, w ++ rest) = [(last, rest)] := by
  induction w generalizing before with
  | nil => exact ⟨before, rfl⟩
  | cons c w ih =>
    obtain ⟨last, hlast⟩ := ih (some c)
    refine ⟨last, ?_⟩
    have hchar : (char fun d => decide (d = c)).ends (before, c :: (w ++ rest)) =
        [(some c, w ++ rest)] := if_pos (decide_eq_true rfl)
    change ((char fun d => decide (d = c)).ends (before, c :: (w ++ rest))).flatMap
      (literal w).ends = _
    rw [hchar, List.flatMap_singleton, hlast]

/-- Greedy repetition of a digit first takes all digits. -/
theorem repeated_digit (before : Option Char) {ds rest : JsStr} {n : ℕ}
    (hds : ∀ c ∈ ds, c.isDigit = true) (hrest : ∀ c ∈ rest.head?, c.isDigit = false)
    (hn : ds.length ≤ n) :
    ∃ last more, repeated digit.ends n (before, ds ++ rest) = (last, rest) :: more := by
  induction ds generalizing before n with
  | nil =>
    have hstuck : digit.ends (before, rest) = [] := by
      cases rest with
      | nil => rfl
      | cons c rest => exact if_neg (by simp [hrest c rfl])
    cases n with
    | zero => exact ⟨before, [], rfl⟩
    | succ n =>
      refine ⟨before, [], ?_⟩
      rw [List.nil_append, repeated, hstuck]
      rfl
  | cons d ds ih =>
    cases n with
    | zero => simp at hn
    | succ n =>
      obtain ⟨last, more, hmore⟩ := ih (some d) (n := n)
        (fun c hc => hds c (List.mem_cons_of_mem d hc)) (by simpa using hn)
      have hstep : digit.ends (before, d :: (ds ++ rest)) = [(some d, ds ++ rest)] :=
        if_pos (hds d List.mem_cons_self)
      refine ⟨last, more ++ [(before, d :: (ds ++ rest))], ?_⟩
      rw [List.cons_append, repeated, hstep, List.filter_cons_of_pos (by simp), List.filter_nil,
        List.flatMap_singleton, hmore, List.cons_append]

/-- The digits between two literals, at the beginning of a text. -/
theorem group_digits {v w ds tail : JsStr} (hne : ds ≠ []) (hds : ∀ c ∈ ds, c.isDigit = true)
    (hw : ∀ c ∈ (w ++ tail).head?, c.isDigit = false) :
    group (literal v) (plus digit) (literal w) (v ++ (ds ++ (w ++ tail))) = some ds := by
  obtain ⟨last, hlast⟩ := ends_literal none v (ds ++ (w ++ tail))
  obtain ⟨d, ds', rfl⟩ := List.exists_cons_of_ne_nil hne
  have hstep : digit.ends (last, d :: ds' ++ (w ++ tail)) = [(some d, ds' ++ (w ++ tail))] :=
    if_pos (hds d List.mem_cons_self)
  obtain ⟨end_, more, hmore⟩ := repeated_digit (some d)
    (n := (ds' ++ (w ++ tail)).length) (fun c hc => hds c (List.mem_cons_of_mem d hc)) hw (by simp)
  have hplus : (plus digit).ends (last, d :: ds' ++ (w ++ tail)) = (end_, w ++ tail) :: more := by
    change (digit.ends (last, d :: ds' ++ (w ++ tail))).flatMap (star digit).ends = _
    rw [hstep, List.flatMap_singleton]
    exact hmore
  obtain ⟨stop_, hstop⟩ := ends_literal end_ w tail
  have hplaces : ∃ others, places none (v ++ (d :: ds' ++ (w ++ tail))) =
      (none, v ++ (d :: ds' ++ (w ++ tail))) :: others := by
    cases v with
    | nil => exact ⟨_, rfl⟩
    | cons c v => exact ⟨_, rfl⟩
  obtain ⟨others, hplaces⟩ := hplaces
  have htaken : (d :: ds' ++ (w ++ tail)).take
      ((d :: ds' ++ (w ++ tail)).length - (w ++ tail).length) = d :: ds' := by
    rw [List.length_append, Nat.add_sub_cancel, List.take_left]
  rw [group, hplaces, List.flatMap_cons, hlast, List.flatMap_singleton, hplus, List.flatMap_cons,
    hstop]
  exact congrArg some htaken

end

end Regex
end Js
