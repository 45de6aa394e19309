import Mathlib.Data.List.DropRight
import Mathlib.Data.List.Forall2

set_option relaxedAutoImplicit false
set_option autoImplicit false

/-!
# Routing

Requests go to handlers by their method and their path. A path is read in two ways: as a router
matches it against its patterns, segment by segment, and as its segments between slashes without
the empty ones.

## Main definitions

* `Routing.parts`, `Routing.Seg`, `Routing.pattern` — a path and a pattern, segment by segment.
* `Routing.segments` — the segments of a path that are not empty.
* `Routing.Route`, `Routing.Follows` — a table of routes, and a router that follows it.
* `Routing.dispatch` — the router that looks through the table.

## Main results

* `Routing.segments_eq_of_fits` — **both ways of reading a path that fits a pattern agree**.
* `Routing.dispatch_follows` — the table is followed when it is looked through.
-/

namespace Routing

/-! ## Paths -/

/-- The segments of a path that begins with a slash, empty ones too. -/
def parts (path : String) : Option (List String) :=
  match path.toList with
  | '/' :: rest => some ((rest.splitOn '/').map String.ofList)
  | _ => none

/-- A text without the slashes at its start and at its end. -/
def trimSlashes (s : List Char) : List Char := (s.dropWhile (· == '/')).rdropWhile (· == '/')

/-- The segments between slashes that are not empty. -/
def segments (path : String) : List String :=
  ((trimSlashes path.toList).splitOn '/').map String.ofList |>.filter (· ≠ "")

/-- A path without the slashes at its end. -/
def trimEnd (path : String) : String := String.ofList (path.toList.rdropWhile (· == '/'))

/-- A text without empty segments has no slash at its start. -/
lemma dropWhile_slash {s : List Char} (h : [] ∉ s.splitOn '/') :
    s.dropWhile (· == '/') = s := by
  rw [List.dropWhile_eq_self_iff]
  intro pos slash
  cases s with
  | nil => exact absurd pos (Nat.lt_irrefl 0)
  | cons c s =>
    apply h
    have is : c == '/' := slash
    rw [List.splitOn_cons_eq_if_modifyHead, if_pos is]
    exact List.mem_cons_self

/-- A text without empty segments has no slash at its end. -/
lemma rdropWhile_slash {s : List Char} (h : [] ∉ s.splitOn '/') :
    s.rdropWhile (· == '/') = s := by
  rw [List.rdropWhile_eq_self_iff]
  intro ne slash
  apply h
  have last : s.getLast ne = '/' := eq_of_beq slash
  rw [← List.dropLast_append_getLast ne, last, List.splitOn_append_cons_self]
  exact List.mem_append_right _ List.mem_cons_self

/-- A path without empty segments has no slash at its end. -/
lemma trimEnd_eq {path : String} {ps : List String} (read : parts path = some ps)
    (full : "" ∉ ps) : trimEnd path = path := by
  unfold parts at read
  split at read
  · next rest chars =>
    obtain rfl := Option.some.inj read
    have none : [] ∉ rest.splitOn '/' := by
      intro mem
      exact full (List.mem_map.mpr ⟨[], mem, rfl⟩)
    have ne : rest ≠ [] := by
      rintro rfl
      exact none List.mem_cons_self
    have kept : ('/' :: rest).rdropWhile (· == '/') = '/' :: rest := by
      rw [List.rdropWhile_eq_self_iff]
      intro _ slash
      rw [List.getLast_cons ne] at slash
      exact List.rdropWhile_eq_self_iff.mp (rdropWhile_slash none) ne slash
    rw [trimEnd, chars, kept, ← chars, String.ofList_toList]
  · exact absurd read nofun

/-- Both ways of reading a path without empty segments agree. -/
lemma segments_eq {path : String} {ps : List String} (read : parts path = some ps)
    (full : "" ∉ ps) : segments path = ps := by
  unfold parts at read
  split at read
  · next rest chars =>
    obtain rfl := Option.some.inj read
    have none : [] ∉ rest.splitOn '/' := by
      intro mem
      exact full (List.mem_map.mpr ⟨[], mem, rfl⟩)
    have trimmed : trimSlashes path.toList = rest := by
      rw [trimSlashes, chars, List.dropWhile_cons_of_pos rfl, dropWhile_slash none,
        rdropWhile_slash none]
    rw [segments, trimmed]
    apply List.filter_eq_self.mpr
    intro p mem
    apply decide_eq_true
    rintro rfl
    exact full mem
  · exact absurd read nofun

/-! ## Patterns -/

/-- A segment of a pattern: a text, or a parameter that takes any text but the empty one. -/
inductive Seg
  | lit (s : String)
  | var (name : String)
  deriving DecidableEq

namespace Seg

/-- A segment in braces is a parameter. -/
def ofChars : List Char → Seg
  | '{' :: name => var (String.ofList name.dropLast)
  | s => lit (String.ofList s)

/-- What a segment of a path is to the segment of the pattern. -/
def Fits : Seg → String → Prop
  | lit s, t => t = s
  | var _, t => t ≠ ""

instance : DecidableRel Fits
  | lit s, t => inferInstanceAs (Decidable (t = s))
  | var _, t => inferInstanceAs (Decidable (t ≠ ""))

end Seg

/-- A pattern as it is written. -/
def pattern (s : String) : List Seg :=
  match s.toList with
  | '/' :: rest => (rest.splitOn '/').map Seg.ofChars
  | _ => []

/-- A path fits a pattern when its segments do, one by one. -/
def Fits (p : List Seg) (path : String) : Prop :=
  ∃ ps ∈ parts path, List.Forall₂ Seg.Fits p ps

instance (p : List Seg) (path : String) : Decidable (Fits p path) :=
  inferInstanceAs (Decidable (∃ ps ∈ parts path, List.Forall₂ Seg.Fits p ps))

/-- At the first segment in which the patterns differ, the first has a text and the second a
parameter. -/
def Before : List Seg → List Seg → Bool
  | .lit _ :: _, .var _ :: _ => true
  | .lit s :: p, .lit t :: q => s = t && Before p q
  | .var _ :: p, .var _ :: q => Before p q
  | _, _ => false

/-- A text takes itself. -/
lemma fits_lit {s : String} {p : List Seg} {ps : List String} :
    List.Forall₂ Seg.Fits (.lit s :: p) ps ↔ ∃ qs, List.Forall₂ Seg.Fits p qs ∧ ps = s :: qs := by
  rw [List.forall₂_cons_left_iff]
  constructor
  · rintro ⟨t, qs, rfl, fits, rfl⟩
    exact ⟨qs, fits, rfl⟩
  · rintro ⟨qs, fits, rfl⟩
    exact ⟨s, qs, rfl, fits, rfl⟩

/-- A parameter takes any segment. -/
lemma fits_var {name : String} {p : List Seg} {ps : List String} :
    List.Forall₂ Seg.Fits (.var name :: p) ps ↔
      ∃ t qs, (t ≠ "" ∧ List.Forall₂ Seg.Fits p qs) ∧ ps = t :: qs := by
  rw [List.forall₂_cons_left_iff]
  constructor
  · rintro ⟨t, qs, full, fits, rfl⟩
    exact ⟨t, qs, ⟨full, fits⟩, rfl⟩
  · rintro ⟨t, qs, ⟨full, fits⟩, rfl⟩
    exact ⟨t, qs, full, fits, rfl⟩

/-- What fits a pattern without empty texts has no empty segment. -/
lemma full_of_fits {p : List Seg} {ps : List String} (fits : List.Forall₂ Seg.Fits p ps) :
    .lit "" ∉ p → "" ∉ ps := by
  induction fits with
  | nil =>
    intro _
    exact List.not_mem_nil
  | @cons seg t p ps fit _ ih =>
    intro texts
    rw [List.mem_cons, not_or] at texts ⊢
    refine ⟨?_, ih texts.2⟩
    rintro rfl
    cases seg with
    | lit s => exact texts.1 (congrArg Seg.lit fit)
    | var name => exact fit rfl

/-- **Both ways of reading a path that fits a pattern agree**. -/
theorem segments_eq_of_fits {p : List Seg} {path : String} (texts : .lit "" ∉ p)
    (fits : Fits p path) : List.Forall₂ Seg.Fits p (segments path) := by
  obtain ⟨ps, read, fits⟩ := fits
  rw [segments_eq read (full_of_fits fits texts)]
  exact fits

/-! ## Tables of routes -/

variable {H : Type*}

/-- A pattern, with the handler for each method. -/
structure Route (H : Type*) where
  pattern : List Seg
  methods : List (String × H)

/-- The handler is the route's for the method; that for `GET` is for `HEAD` too. -/
def Route.Serves (r : Route H) (method : String) (h : H) : Prop :=
  ∃ m ∈ r.methods, m.2 = h ∧ (m.1 = method ∨ m.1 = "GET" ∧ method = "HEAD")

/-- **A router follows a table**: a request goes to the handler of a route that its path fits, and
no other route that it fits has a text where that has a parameter. -/
def Follows (routes : List (Route H)) (router : String → String → Option H) : Prop :=
  ∀ {method path h}, router method path = some h → ∃ r ∈ routes, Fits r.pattern path ∧
    r.Serves method h ∧ ∀ other ∈ routes, Fits other.pattern path →
      Before other.pattern r.pattern = false

/-- No route of the list goes before it. -/
def Unbeaten (routes : List (Route H)) (r : Route H) : Bool :=
  routes.all fun other => !Before other.pattern r.pattern

/-- The first route that the segments fit with no other before it, and there the method's
handler. -/
def choose (routes : List (Route H)) (method : String) (ps : List String) : Option H :=
  let fitting := routes.filter fun r => List.Forall₂ Seg.Fits r.pattern ps
  (fitting.find? (Unbeaten fitting)).bind fun r =>
    (r.methods.find? fun m => m.1 = method || (m.1 = "GET" && method = "HEAD")).map Prod.snd

/-- Where just one route takes a path, it is chosen. -/
lemma choose_of_unique {before after : List (Route H)} {r : Route H} {method : String}
    {ps : List String} (fits : List.Forall₂ Seg.Fits r.pattern ps)
    (misses : ∀ other ∈ before ++ after, ¬ List.Forall₂ Seg.Fits other.pattern ps)
    (plain : Before r.pattern r.pattern = false) :
    choose (before ++ r :: after) method ps =
      (r.methods.find? fun m => m.1 = method || (m.1 = "GET" && method = "HEAD")).map Prod.snd := by
  have none : (before ++ after).filter (fun r => List.Forall₂ Seg.Fits r.pattern ps) = [] := by
    apply List.filter_eq_nil_iff.mpr
    intro other mem taken
    exact misses other mem (of_decide_eq_true taken)
  rw [List.filter_append, List.append_eq_nil_iff] at none
  have only : (before ++ r :: after).filter (fun r => List.Forall₂ Seg.Fits r.pattern ps) =
      [r] := by
    rw [List.filter_append, List.filter_cons, if_pos (decide_eq_true fits), none.1, none.2,
      List.nil_append]
  have unbeaten : Unbeaten [r] r = true := by
    rw [Unbeaten, List.all_cons, plain]
    rfl
  simp only [choose, only, List.find?_cons_of_pos unbeaten, Option.bind_some]

/-- A router that looks through the table. -/
def dispatch (routes : List (Route H)) (method path : String) : Option H :=
  (parts path).bind (choose routes method)

/-- **The table is followed when it is looked through**. -/
theorem dispatch_follows (routes : List (Route H)) : Follows routes (dispatch routes) := by
  intro method path h found
  obtain ⟨ps, read, found⟩ := Option.bind_eq_some_iff.mp found
  obtain ⟨r, first, found⟩ := Option.bind_eq_some_iff.mp found
  obtain ⟨m, serves, rfl⟩ := Option.map_eq_some_iff.mp found
  obtain ⟨mem, fits⟩ := List.mem_filter.mp (List.mem_of_find?_eq_some first)
  have unbeaten : Unbeaten _ r = true := List.find?_some first
  refine ⟨r, mem, ⟨ps, read, of_decide_eq_true fits⟩,
    ⟨m, List.mem_of_find?_eq_some serves, rfl, ?_⟩, ?_⟩
  · have right := List.find?_some serves
    rw [Bool.or_eq_true, Bool.and_eq_true] at right
    exact right.imp of_decide_eq_true fun both =>
      ⟨of_decide_eq_true both.1, of_decide_eq_true both.2⟩
  · rintro other mem ⟨qs, same, fits⟩
    obtain rfl : ps = qs := Option.some.inj (read.symm.trans same)
    have later := List.all_eq_true.mp unbeaten other
      (List.mem_filter.mpr ⟨mem, decide_eq_true fits⟩)
    exact (Bool.not_eq_true' _).mp later

end Routing
