import Mathlib.Tactic.SplitIfs
import Tokenable.Js.Utf8

/-!
# URL query parameters

`URLSearchParams`: an ordered list of names and values, the text it serializes to and the parser of
such texts. Every list of parameters, with any characters in it, is read back from its text.
-/

namespace Js.Form

open Utf8

abbrev Params := List (JsStr × JsStr)

/-- `params.get(name)` -/
def get (ps : Params) (name : JsStr) : Option JsStr := (ps.find? fun p => p.1 = name).map (·.2)

/-- Writes a value over the first parameter of the name and drops the later ones. -/
def overwrite (name value : JsStr) : Params → Params
  | [] => []
  | p :: ps =>
    if p.1 = name then (name, value) :: ps.filter fun q => q.1 ≠ name
    else p :: overwrite name value ps

/-- `params.set(name, value)` -/
def set (ps : Params) (name value : JsStr) : Params :=
  if ps.any fun p => p.1 = name then overwrite name value ps else ps ++ [(name, value)]

/-- `if (value) params.set(name, value)`, for one name after the other. -/
def setAll (fields : List (JsStr × Option JsStr)) : Params :=
  fields.foldl (fun ps field => field.2.elim ps (set ps field.1)) []

/-- Octets that stand for themselves: letters, digits, `*`, `-`, `.` and `_`. -/
def isSafe (b : ℕ) : Prop :=
  (0x30 ≤ b ∧ b ≤ 0x39) ∨ (0x41 ≤ b ∧ b ≤ 0x5A) ∨ (0x61 ≤ b ∧ b ≤ 0x7A) ∨
    b = 0x2A ∨ b = 0x2D ∨ b = 0x2E ∨ b = 0x5F

instance (b : ℕ) : Decidable (isSafe b) := by
  unfold isSafe
  infer_instance

def hexOctet (d : ℕ) : ℕ := if d < 10 then 0x30 + d else 0x37 + d

def encodeOctet (b : ℕ) : Octets :=
  if b = 0x20 then [0x2B]
  else if isSafe b then [b]
  else [0x25, hexOctet (b / 16), hexOctet (b % 16)]

def encodeComponent (s : JsStr) : Octets := (encode s).flatMap encodeOctet

def encodeParam (p : JsStr × JsStr) : Octets :=
  encodeComponent p.1 ++ 0x3D :: encodeComponent p.2

def queryOctets (ps : Params) : Octets := [0x26].intercalate (ps.map encodeParam)

/-- `params.toString()` -/
def queryText (ps : Params) : JsStr := (queryOctets ps).map Char.ofNat

def hexOctetValue (b : ℕ) : Option ℕ :=
  if 0x30 ≤ b ∧ b ≤ 0x39 then some (b - 0x30)
  else if 0x41 ≤ b ∧ b ≤ 0x46 then some (b - 0x37)
  else if 0x61 ≤ b ∧ b ≤ 0x66 then some (b - 0x57)
  else none

/-- A percent sign without two digits after it stands for itself. -/
def percentDecode : Octets → Octets
  | b :: h :: l :: bs =>
    if b = 0x25 then
      match hexOctetValue h, hexOctetValue l with
      | some x, some y => (16 * x + y) :: percentDecode bs
      | _, _ => b :: percentDecode (h :: l :: bs)
    else b :: percentDecode (h :: l :: bs)
  | bs => bs

def plusToSpace (bs : Octets) : Octets := bs.map fun b => if b = 0x2B then 0x20 else b

def decodeComponent (bs : Octets) : JsStr := decode (percentDecode (plusToSpace bs))

/-- A parameter without `=` has an empty value. -/
def decodeParam (bs : Octets) : JsStr × JsStr :=
  (decodeComponent (bs.takeWhile (· ≠ 0x3D)), decodeComponent (bs.dropWhile (· ≠ 0x3D)).tail)

def parseOctets (bs : Octets) : Params :=
  ((bs.splitOn 0x26).filter fun part => !part.isEmpty).map decodeParam

def withoutMark : JsStr → JsStr
  | '?' :: s => s
  | s => s

/-- `new URLSearchParams(s)` -/
def parseQuery (s : JsStr) : Params := parseOctets (encode (withoutMark s))

/-! ## Reading what was set -/

theorem get_append_of_ne {ps : Params} {name other value : JsStr} (h : other ≠ name) :
    get (ps ++ [(other, value)]) name = get ps name := by
  unfold get
  rw [List.find?_append, List.find?_cons_of_neg (by simpa using h)]
  simp

theorem get_append_of_not_any {ps : Params} {name value : JsStr}
    (h : (ps.any fun p => p.1 = name) = false) :
    get (ps ++ [(name, value)]) name = some value := by
  have hnone : ps.find? (fun p => p.1 = name) = none := by
    rw [List.find?_eq_none]
    intro p hp
    have hp' := List.any_eq_false.mp h p hp
    simpa using hp'
  unfold get
  rw [List.find?_append, hnone, List.find?_cons_of_pos (by simp)]
  rfl

theorem get_overwrite_self {ps : Params} {name value : JsStr}
    (h : (ps.any fun p => p.1 = name) = true) :
    get (overwrite name value ps) name = some value := by
  induction ps with
  | nil => cases h
  | cons p ps ih =>
    by_cases hp : p.1 = name
    · rw [overwrite, if_pos hp, get, List.find?_cons_of_pos (by simp)]
      rfl
    · rw [List.any_cons, decide_eq_false hp, Bool.false_or] at h
      rw [overwrite, if_neg hp, get, List.find?_cons_of_neg (by simpa using hp)]
      exact ih h

theorem get_overwrite_of_ne (ps : Params) {name other value : JsStr} (h : other ≠ name) :
    get (overwrite other value ps) name = get ps name := by
  induction ps with
  | nil => rfl
  | cons p ps ih =>
    by_cases hp : p.1 = other
    · have hkept : ∀ qs : Params,
          (qs.filter fun q => q.1 ≠ other).find? (fun q => q.1 = name) =
            qs.find? fun q => q.1 = name := by
        intro qs
        rw [List.find?_filter]
        congr 1
        funext q
        by_cases hq : q.1 = name
        · simp [hq, Ne.symm h]
        · simp [hq]
      rw [overwrite, if_pos hp, get, get, List.find?_cons_of_neg (by simpa using h), hkept,
        List.find?_cons_of_neg (by simpa [hp] using h)]
    · rw [overwrite, if_neg hp]
      by_cases hq : p.1 = name
      · rw [get, get, List.find?_cons_of_pos (by simpa using hq),
          List.find?_cons_of_pos (by simpa using hq)]
      · rw [get, get, List.find?_cons_of_neg (by simpa using hq),
          List.find?_cons_of_neg (by simpa using hq)]
        exact ih

theorem get_set_self (ps : Params) (name value : JsStr) :
    get (set ps name value) name = some value := by
  by_cases h : (ps.any fun p => p.1 = name) = true
  · rw [set, if_pos h, get_overwrite_self h]
  · rw [set, if_neg h, get_append_of_not_any (Bool.eq_false_iff.mpr h)]

theorem get_set_of_ne (ps : Params) {name other value : JsStr} (h : other ≠ name) :
    get (set ps other value) name = get ps name := by
  unfold set
  split_ifs
  · exact get_overwrite_of_ne ps h
  · exact get_append_of_ne h

theorem get_foldl_of_not_mem {fields : List (JsStr × Option JsStr)} {name : JsStr}
    (h : name ∉ fields.map (·.1)) (ps : Params) :
    get (fields.foldl (fun ps field => field.2.elim ps (set ps field.1)) ps) name =
      get ps name := by
  induction fields generalizing ps with
  | nil => rfl
  | cons field fields ih =>
    rw [List.map_cons, List.mem_cons, not_or] at h
    rw [List.foldl_cons, ih h.2]
    cases field.2 with
    | none => rfl
    | some value => exact get_set_of_ne ps (Ne.symm h.1)

theorem get_setAll_of_not_mem {fields : List (JsStr × Option JsStr)} {name : JsStr}
    (h : name ∉ fields.map (·.1)) : get (setAll fields) name = none :=
  get_foldl_of_not_mem h []

/-- Of names that are set once, each has the value that was set. -/
theorem get_setAll {fields : List (JsStr × Option JsStr)} {name : JsStr} {value : Option JsStr}
    (hnodup : (fields.map (·.1)).Nodup) (h : (name, value) ∈ fields) :
    get (setAll fields) name = value := by
  obtain ⟨before, after, rfl⟩ := List.append_of_mem h
  rw [List.map_append, List.map_cons, List.nodup_append] at hnodup
  obtain ⟨-, hafter, hbefore⟩ := hnodup
  have hnotAfter : name ∉ after.map (·.1) := (List.nodup_cons.mp hafter).1
  have hnotBefore : name ∉ before.map (·.1) := fun hmem => hbefore name hmem name (.head _) rfl
  rw [setAll, List.foldl_append, List.foldl_cons, get_foldl_of_not_mem hnotAfter]
  cases value with
  | none => exact get_foldl_of_not_mem hnotBefore []
  | some value => exact get_set_self _ name value

/-! ## The text -/

theorem percentDecode_cons_of_ne {b : ℕ} (h : b ≠ 0x25) (bs : Octets) :
    percentDecode (b :: bs) = b :: percentDecode bs := by
  cases bs with
  | nil => rfl
  | cons h' bs =>
    cases bs with
    | nil => rfl
    | cons l bs => rw [percentDecode, if_neg h]

theorem hexOctetValue_hexOctet {d : ℕ} (h : d < 16) : hexOctetValue (hexOctet d) = some d := by
  unfold hexOctet
  split_ifs with hd
  · rw [hexOctetValue, if_pos (by omega)]
    congr 1
    omega
  · rw [hexOctetValue, if_neg (by omega), if_pos (by omega)]
    congr 1
    omega

theorem percentDecode_percent {b : ℕ} (h : b < 256) (bs : Octets) :
    percentDecode (0x25 :: hexOctet (b / 16) :: hexOctet (b % 16) :: bs) =
      b :: percentDecode bs := by
  rw [percentDecode, if_pos rfl, hexOctetValue_hexOctet (by omega),
    hexOctetValue_hexOctet (by omega)]
  have hb : 16 * (b / 16) + b % 16 = b := Nat.div_add_mod b 16
  simp only [hb]

/-- The octets that a component is made of. None of them separates or starts anything, and a plus
sign among them is a space. -/
def IsComponent (b : ℕ) : Prop := isSafe b ∨ b = 0x25 ∨ b = 0x2B

theorem isSafe_hexOctet {d : ℕ} (h : d < 16) : isSafe (hexOctet d) := by
  unfold hexOctet isSafe
  split_ifs <;> omega

theorem isComponent_of_mem_encodeOctet {b x : ℕ} (hb : b < 256) (h : x ∈ encodeOctet b) :
    IsComponent x := by
  unfold encodeOctet at h
  split_ifs at h with hspace hsafe
  · rw [List.mem_singleton.mp h]
    exact .inr (.inr rfl)
  · rw [List.mem_singleton.mp h]
    exact .inl hsafe
  · simp only [List.mem_cons, List.not_mem_nil, or_false] at h
    rcases h with rfl | rfl | rfl
    · exact .inr (.inl rfl)
    · exact .inl (isSafe_hexOctet (by omega))
    · exact .inl (isSafe_hexOctet (by omega))

theorem isComponent_of_mem {s : JsStr} {x : ℕ} (h : x ∈ encodeComponent s) : IsComponent x := by
  obtain ⟨b, hb, hx⟩ := List.mem_flatMap.mp h
  exact isComponent_of_mem_encodeOctet (lt_of_mem_encode hb) hx

theorem IsComponent.ne {x : ℕ} (h : IsComponent x) : x < 0x80 ∧ x ≠ 0x26 ∧ x ≠ 0x3D ∧ x ≠ 0x3F := by
  unfold IsComponent isSafe at h
  omega

theorem plusToSpace_cons_of_safe {b : ℕ} (h : isSafe b) (bs : Octets) :
    plusToSpace (b :: bs) = b :: plusToSpace bs := by
  unfold isSafe at h
  rw [plusToSpace, List.map_cons, if_neg (by omega)]
  rfl

/-- An octet is read back from what it was written as. -/
theorem percentDecode_encodeOctet {b : ℕ} (hb : b < 256) (bs : Octets) :
    percentDecode (plusToSpace (encodeOctet b ++ bs)) = b :: percentDecode (plusToSpace bs) := by
  unfold encodeOctet
  split_ifs with hspace hsafe
  · rw [hspace]
    exact percentDecode_cons_of_ne (b := 0x20) (by decide) _
  · have hne : b ≠ 0x25 := by
      unfold isSafe at hsafe
      omega
    rw [List.singleton_append, plusToSpace_cons_of_safe hsafe, percentDecode_cons_of_ne hne]
  · have hpercent : ∀ ys, plusToSpace (0x25 :: ys) = 0x25 :: plusToSpace ys := fun _ => rfl
    rw [List.cons_append, List.cons_append, List.cons_append, List.nil_append, hpercent,
      plusToSpace_cons_of_safe (isSafe_hexOctet (by omega)),
      plusToSpace_cons_of_safe (isSafe_hexOctet (by omega)), percentDecode_percent hb]

theorem percentDecode_flatMap {bs : Octets} (h : ∀ b ∈ bs, b < 256) :
    percentDecode (plusToSpace (bs.flatMap encodeOctet)) = bs := by
  induction bs with
  | nil => rfl
  | cons b bs ih =>
    rw [List.flatMap_cons, percentDecode_encodeOctet (h b (.head _)),
      ih fun b hb => h b (.tail _ hb)]

theorem decodeComponent_encodeComponent (s : JsStr) : decodeComponent (encodeComponent s) = s := by
  rw [decodeComponent, encodeComponent, percentDecode_flatMap fun _ => lt_of_mem_encode,
    decode_encode]

theorem decodeParam_encodeParam (p : JsStr × JsStr) : decodeParam (encodeParam p) = p := by
  have hname : ∀ b ∈ encodeComponent p.1, decide (b ≠ 0x3D) = true := fun b hb =>
    decide_eq_true (isComponent_of_mem hb).ne.2.2.1
  unfold decodeParam encodeParam
  rw [List.takeWhile_append_of_pos hname, List.dropWhile_append_of_pos hname,
    List.takeWhile_cons_of_neg (by simp), List.dropWhile_cons_of_neg (by simp), List.append_nil,
    List.tail_cons, decodeComponent_encodeComponent, decodeComponent_encodeComponent]

theorem mem_encodeParam {p : JsStr × JsStr} {x : ℕ} (h : x ∈ encodeParam p) :
    x < 0x80 ∧ x ≠ 0x26 ∧ x ≠ 0x3F := by
  rcases List.mem_append.mp h with h | h
  · have hx := (isComponent_of_mem h).ne
    exact ⟨hx.1, hx.2.1, hx.2.2.2⟩
  · rcases List.mem_cons.mp h with rfl | h
    · omega
    · have hx := (isComponent_of_mem h).ne
      exact ⟨hx.1, hx.2.1, hx.2.2.2⟩

theorem encodeParam_ne_nil (p : JsStr × JsStr) : encodeParam p ≠ [] := by simp [encodeParam]

theorem parseOctets_queryOctets (ps : Params) : parseOctets (queryOctets ps) = ps := by
  cases ps with
  | nil => rfl
  | cons p ps =>
    have hamp : ∀ part ∈ (p :: ps).map encodeParam, 0x26 ∉ part := by
      intro part hpart hmem
      obtain ⟨q, -, rfl⟩ := List.mem_map.mp hpart
      exact (mem_encodeParam hmem).2.1 rfl
    have hkept : ((p :: ps).map encodeParam).filter (fun part => !part.isEmpty) =
        (p :: ps).map encodeParam := by
      rw [List.filter_eq_self]
      intro part hpart
      obtain ⟨q, -, rfl⟩ := List.mem_map.mp hpart
      simp [encodeParam_ne_nil q]
    have hread : (decodeParam ∘ encodeParam) = id := funext decodeParam_encodeParam
    rw [parseOctets, queryOctets, List.splitOn_intercalate _ hamp (by simp), hkept, List.map_map,
      hread, List.map_id]

theorem mem_queryOctets {ps : Params} {x : ℕ} (h : x ∈ queryOctets ps) : x < 0x80 ∧ x ≠ 0x3F := by
  unfold queryOctets at h
  induction ps with
  | nil => cases h
  | cons p ps ih =>
    cases ps with
    | nil =>
      have hx := mem_encodeParam (p := p) (by simpa using h)
      exact ⟨hx.1, hx.2.2⟩
    | cons q ps =>
      rw [List.map_cons, List.map_cons, List.intercalate_cons_cons, List.append_assoc,
        List.mem_append, List.mem_append] at h
      rcases h with h | h | h
      · have hx := mem_encodeParam h
        exact ⟨hx.1, hx.2.2⟩
      · rw [List.mem_singleton.mp h]
        omega
      · exact ih h

theorem toNat_ofNat_of_mem {ps : Params} {x : ℕ} (h : x ∈ queryOctets ps) :
    (Char.ofNat x).toNat = x := by
  have hlt := (mem_queryOctets h).1
  have hvalid : x.isValidChar := Or.inl (by omega)
  have hchar : Char.ofNat x = Char.ofNatAux x hvalid := dif_pos hvalid
  rw [hchar]
  rfl

/-- The text of the parameters is ASCII: its octets are those the serializer wrote. -/
theorem encode_queryText (ps : Params) : encode (queryText ps) = queryOctets ps := by
  rw [queryText, encode_ascii, List.map_map]
  · exact (List.map_congr_left fun x => toNat_ofNat_of_mem).trans (List.map_id _)
  · intro c hc
    obtain ⟨x, hx, rfl⟩ := List.mem_map.mp hc
    rw [toNat_ofNat_of_mem hx]
    exact (mem_queryOctets hx).1

theorem withoutMark_queryText (ps : Params) : withoutMark (queryText ps) = queryText ps := by
  unfold withoutMark
  split
  · rename_i s hs
    have hmem : '?' ∈ queryText ps := hs ▸ List.mem_cons_self
    obtain ⟨x, hx, hxc⟩ := List.mem_map.mp hmem
    have hnat : x = 0x3F := by
      rw [← toNat_ofNat_of_mem hx, hxc]
      rfl
    exact absurd hnat (mem_queryOctets hx).2
  · rfl

/-- Parameters are read back from their text. -/
theorem parseQuery_queryText (ps : Params) : parseQuery (queryText ps) = ps := by
  rw [parseQuery, withoutMark_queryText, encode_queryText, parseOctets_queryOctets]

/-- They are read back from the text behind a question mark as well. -/
theorem parseQuery_mark (ps : Params) : parseQuery ('?' :: queryText ps) = ps := by
  rw [parseQuery, withoutMark, encode_queryText, parseOctets_queryOctets]

end Js.Form
