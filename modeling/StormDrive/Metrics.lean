import Mathlib.Data.List.Perm.Basic
import Mathlib.Data.String.Basic
import StormDrive.OrderedMap
import StormDrive.Text.Exposition

set_option relaxedAutoImplicit false
set_option autoImplicit false

/-!
# The page of metrics

What is measured is added sample by sample to families, which are written in the order in which they
came up (`Out` of `metrics.rs`).

## Main definitions

* `Metrics.escape`, `Metrics.renderLabels` — the labels of a sample as text.
* `Metrics.Out.add`, `Metrics.Out.finish` — one sample more, and the text of all.
* `Metrics.linesOf` — the lines that are meant: a family by a family, each with its samples.

## Main results

* `Metrics.toList_finish` — **what is added in any order is written family by family**.
* `Metrics.introduced_linesOf` — each name is introduced once, and before its samples.
* `Metrics.samples_linesOf` — the samples that are read are those that were added.
-/

namespace StormDrive

namespace Metrics

open Exposition (Line)

/-! ## Labels as text -/

/-- Each of a character is replaced. -/
def replace (c : Char) (by' : List Char) (v : List Char) : List Char :=
  v.flatMap fun d => if d = c then by' else [d]

/-- The value of a label: a backslash, a quote and the end of a line are escaped, one after the
other. -/
def escape (v : String) : String :=
  String.ofList (replace '\n' ['\\', 'n'] (replace '"' ['\\', '"']
    (replace '\\' ['\\', '\\'] v.toList)))

/-- One label. -/
def labelText (l : String × String) : String := l.1 ++ "=\"" ++ escape l.2 ++ "\""

/-- The labels in braces, or nothing if there are none. -/
def renderLabels (labels : List (String × String)) : String :=
  if labels.isEmpty then "" else "\x7b" ++ ",".intercalate (labels.map labelText) ++ "\x7d"

/-- Replaced one after the other, each character is escaped once. -/
lemma toList_escape (v : String) : (escape v).toList = Exposition.escape v.toList := by
  rw [escape, String.toList_ofList]
  induction v.toList with
  | nil => rfl
  | cons c cs ih =>
    unfold replace Exposition.escape at ih ⊢
    simp only [List.flatMap_cons, List.flatMap_append] at ih ⊢
    rw [ih]
    congr 1
    unfold Exposition.escapeChar
    by_cases backslash : c = '\\'
    · simp [backslash]
    · by_cases quote : c = '"'
      · simp [quote]
      · by_cases newline : c = '\n'
        · simp [newline]
        · simp [backslash, quote, newline]

/-- A label as it is read. -/
def chars (l : String × String) : Exposition.Label := (l.1.toList, l.2.toList)

lemma toList_renderLabels (labels : List (String × String)) :
    (renderLabels labels).toList = Exposition.writeLabels (labels.map chars) := by
  have each : ∀ l, (labelText l).toList = Exposition.writeLabel (chars l) := by
    intro l
    simp [labelText, Exposition.writeLabel, chars, toList_escape]
  have more : ∀ (l : String × String) (ls : List (String × String)),
      (",".intercalate ((l :: ls).map labelText)).toList =
        Exposition.writeLabel (chars l) ++ Exposition.writeMore (ls.map chars) := by
    intro l ls
    induction ls generalizing l with
    | nil =>
      rw [List.map_cons, List.map_nil, String.intercalate_singleton, each]
      simp [Exposition.writeMore]
    | cons l' ls ih =>
      rw [List.map_cons, List.map_cons, String.intercalate_cons_cons, ← List.map_cons,
        String.toList_append, String.toList_append, each, ih l']
      simp [Exposition.writeMore]
  cases labels with
  | nil => rfl
  | cons l ls =>
    have some : ¬ (l :: ls).isEmpty := by simp
    rw [renderLabels, if_neg some, String.toList_append, String.toList_append, more l ls]
    simp [Exposition.writeLabels]

/-! ## Families -/

/-- A sample that is added, with what its name means and of what kind it is. -/
structure Sample (V : Type) where
  name : String
  kind : String
  help : String
  labels : List (String × String)
  value : V

/-- A family: its samples, in the order in which they were added. -/
structure Family (V : Type) where
  help : String
  kind : String
  samples : List (String × V)

/-- The families so far, and the order in which they came up. -/
structure Out (V : Type) where
  order : List String := []
  families : List (String × Family V) := []

variable {V : Type} (fmt : V → String)

/-- A sample more in a family. -/
def Family.push (f : Family V) (labels : String) (v : V) : Family V where
  help := f.help
  kind := f.kind
  samples := f.samples ++ [(labels, v)]

/-- A sample is added. -/
def Out.add (o : Out V) (s : Sample V) : Out V :=
  match OrderedMap.get o.families s.name with
  | some f =>
    { order := o.order
      families := OrderedMap.insert s.name (f.push (renderLabels s.labels) s.value) o.families }
  | none =>
    { order := o.order ++ [s.name]
      families := OrderedMap.insert s.name
        ⟨s.help, s.kind, [(renderLabels s.labels, s.value)]⟩ o.families }

/-- The lines of a family. -/
def Family.text (name : String) (f : Family V) : String :=
  "# HELP " ++ name ++ " " ++ f.help ++ "\n" ++ ("# TYPE " ++ name ++ " " ++ f.kind ++ "\n") ++
    String.join (f.samples.map fun x => name ++ x.1 ++ " " ++ fmt x.2 ++ "\n")

/-- The text of all families. -/
def Out.finish (o : Out V) : String :=
  String.join (o.order.map fun n => ((OrderedMap.get o.families n).map (Family.text fmt n)).getD "")

/-! ## What is meant -/

/-- The names of some samples, each where it came up first. -/
def names (ss : List (Sample V)) : List String :=
  ss.foldl (fun ns s => if s.name ∈ ns then ns else ns ++ [s.name]) []

/-- A sample as a line. -/
def Sample.line (s : Sample V) : Line :=
  .sample s.name.toList (s.labels.map chars) (fmt s.value).toList

/-- The lines of some samples of one name: what it means and of what kind it is, and the samples. -/
def familyLines : List (Sample V) → List Line
  | [] => []
  | s :: ss => [.help s.name.toList s.help.toList, .type s.name.toList s.kind.toList] ++
      (s :: ss).map (Sample.line fmt)

/-- **The lines that are meant**: name by name, each with all its samples. -/
def linesOf (ss : List (Sample V)) : List Line :=
  (names ss).flatMap fun n => familyLines fmt (ss.filter fun s => s.name = n)

/-! ## What is added is there -/

/-- Some samples of one name as a family. -/
def familyOf : List (Sample V) → Option (Family V)
  | [] => none
  | s :: ss => some ⟨s.help, s.kind, (s :: ss).map fun s => (renderLabels s.labels, s.value)⟩

lemma names_concat (ss : List (Sample V)) (s : Sample V) :
    names (ss ++ [s]) = if s.name ∈ names ss then names ss else names ss ++ [s.name] := by
  unfold names
  rw [List.foldl_append]
  rfl

lemma mem_names_iff {ss : List (Sample V)} {n : String} :
    n ∈ names ss ↔ ∃ s ∈ ss, s.name = n := by
  induction ss using List.reverseRecOn with
  | nil => simp [names]
  | append_singleton ss s ih =>
    have members : n ∈ names (ss ++ [s]) ↔ n ∈ names ss ∨ n = s.name := by
      rw [names_concat]
      split_ifs with known
      · exact ⟨Or.inl, fun h => h.elim id fun same => same ▸ known⟩
      · rw [List.mem_append, List.mem_singleton]
    rw [members, ih]
    simp only [List.mem_append, List.mem_singleton, or_and_right, exists_or, exists_eq_left]
    rw [eq_comm (a := n)]

lemma nodup_names (ss : List (Sample V)) : (names ss).Nodup := by
  induction ss using List.reverseRecOn with
  | nil => exact List.Pairwise.nil
  | append_singleton ss s ih =>
    rw [names_concat]
    split_ifs with known
    · exact ih
    · refine List.nodup_append.mpr ⟨ih, List.pairwise_singleton _ _, ?_⟩
      rintro a mem b single rfl
      exact known (List.mem_singleton.mp single ▸ mem)

/-- The families have what was added to them. -/
structure Out.Holds (o : Out V) (ss : List (Sample V)) : Prop where
  order : o.order = names ss
  families : ∀ n, OrderedMap.get o.families n = familyOf (ss.filter fun s => s.name = n)

lemma filter_eq_nil_iff {ss : List (Sample V)} {n : String} :
    ss.filter (fun s => s.name = n) = [] ↔ n ∉ names ss := by
  rw [List.filter_eq_nil_iff, mem_names_iff]
  simp

lemma familyOf_concat (ss : List (Sample V)) (s : Sample V) : familyOf (ss ++ [s]) = some
    ((familyOf ss).elim ⟨s.help, s.kind, [(renderLabels s.labels, s.value)]⟩ fun f =>
      f.push (renderLabels s.labels) s.value) := by
  cases ss with
  | nil => rfl
  | cons t ss => simp [familyOf, Family.push]

lemma Out.Holds.add {o : Out V} {ss : List (Sample V)} (h : o.Holds ss) (s : Sample V) :
    (o.add s).Holds (ss ++ [s]) := by
  have old := h.families s.name
  have filtered : ∀ n, (ss ++ [s]).filter (fun t => t.name = n) =
      ss.filter (fun t => t.name = n) ++ if s.name = n then [s] else [] := by
    intro n
    rw [List.filter_append, List.filter_singleton]
    split_ifs with same
    · simp [same]
    · simp [same]
  have known : s.name ∈ names ss ↔ OrderedMap.get o.families s.name ≠ none := by
    rw [old, ← not_not (a := s.name ∈ names ss), ← filter_eq_nil_iff]
    cases ss.filter fun t => t.name = s.name with
    | nil => simp [familyOf]
    | cons t ts => simp [familyOf]
  constructor
  · rw [names_concat, Out.add]
    cases found : OrderedMap.get o.families s.name with
    | none => rw [if_neg (fun mem => known.mp mem found), h.order]
    | some f => rw [if_pos (known.mpr (by rw [found]; exact Option.some_ne_none f)), h.order]
  · intro n
    rw [filtered, Out.add]
    by_cases same : s.name = n
    · subst same
      rw [if_pos rfl, familyOf_concat, ← old]
      cases found : OrderedMap.get o.families s.name with
      | none => exact OrderedMap.get_insert_self ..
      | some f => exact OrderedMap.get_insert_self ..
    · rw [if_neg same, List.append_nil, ← h.families n]
      have other : n ≠ s.name := fun eq => same eq.symm
      cases OrderedMap.get o.families s.name with
      | none => exact OrderedMap.get_insert_of_ne other ..
      | some f => exact OrderedMap.get_insert_of_ne other ..

lemma holds_foldl (ss : List (Sample V)) : (ss.foldl Out.add {}).Holds ss := by
  induction ss using List.reverseRecOn with
  | nil => exact ⟨rfl, fun n => rfl⟩
  | append_singleton ss s ih =>
    rw [List.foldl_append]
    exact ih.add s

/-! ## The text is read -/

lemma write_append (ls ms : List Line) :
    Exposition.write (ls ++ ms) = Exposition.write ls ++ Exposition.write ms :=
  List.flatMap_append

/-- The text of a family is that of its lines. -/
lemma toList_text {ss : List (Sample V)} {n : String} (same : ∀ s ∈ ss, s.name = n) :
    (((familyOf ss).map (Family.text fmt n)).getD "").toList =
      Exposition.write (familyLines fmt ss) := by
  cases ss with
  | nil => rfl
  | cons s ss =>
    obtain rfl := same s (List.mem_cons_self ..)
    have each : ∀ ts : List (Sample V), (∀ t ∈ ts, t.name = s.name) →
        ((ts.map fun t => (renderLabels t.labels, t.value)).map fun x =>
          s.name ++ x.1 ++ " " ++ fmt x.2 ++ "\n").flatMap String.toList =
          Exposition.write (ts.map (Sample.line fmt)) := by
      intro ts
      induction ts with
      | nil => exact fun _ => rfl
      | cons t ts ih =>
        intro names
        have first := names t (List.mem_cons_self ..)
        have rest := ih fun t' mem => names t' (List.mem_cons_of_mem _ mem)
        rw [List.map_cons, List.map_cons, List.flatMap_cons, rest, List.map_cons]
        simp [Exposition.write, Sample.line, Line.text, toList_renderLabels, first]
    have head : ("# HELP " ++ s.name ++ " " ++ s.help ++ "\n" ++
        ("# TYPE " ++ s.name ++ " " ++ s.kind ++ "\n")).toList =
        Exposition.write [.help s.name.toList s.help.toList, .type s.name.toList s.kind.toList] := by
      simp [Exposition.write, Line.text, Exposition.helpMark, Exposition.typeMark]
    have samples := each (s :: ss) same
    rw [familyOf, Option.map_some, Option.getD_some, Family.text, String.toList_append, head,
      String.toList_join, samples, familyLines, write_append]

/-- Nothing in a sample but the values of its labels needs to be escaped. -/
structure Sample.Plain (s : Sample V) : Prop where
  line : (s.line fmt).Plain
  help : '\n' ∉ s.help.toList
  kind : '\n' ∉ s.kind.toList

lemma plain_familyLines {ss : List (Sample V)} (plain : ∀ s ∈ ss, s.Plain fmt) :
    ∀ l ∈ familyLines fmt ss, l.Plain := by
  cases ss with
  | nil => simp [familyLines]
  | cons s ss =>
    have first := plain s (List.mem_cons_self ..)
    obtain ⟨-, blank, -, newline, -, -⟩ := first.line
    intro l mem
    obtain head | sample := List.mem_append.mp mem
    · simp only [List.mem_cons, List.not_mem_nil, or_false] at head
      obtain rfl | rfl := head
      · exact ⟨blank, newline, first.help⟩
      · exact ⟨blank, newline, first.kind⟩
    · obtain ⟨t, here, rfl⟩ := List.mem_map.mp sample
      exact (plain t here).line

lemma plain_linesOf {ss : List (Sample V)} (plain : ∀ s ∈ ss, s.Plain fmt) :
    ∀ l ∈ linesOf fmt ss, l.Plain := by
  intro l mem
  obtain ⟨n, -, inside⟩ := List.mem_flatMap.mp mem
  exact plain_familyLines fmt (fun s here => plain s (List.mem_of_mem_filter here)) l inside

/-- **What is added in any order is written family by family.** -/
theorem toList_finish (ss : List (Sample V)) :
    ((ss.foldl Out.add {}).finish fmt).toList = Exposition.write (linesOf fmt ss) := by
  have holds := holds_foldl ss
  rw [Out.finish, String.toList_join, holds.order, List.flatMap_map, linesOf, Exposition.write,
    List.flatMap_assoc]
  congr 1
  funext n
  rw [holds.families n, toList_text fmt fun s mem => by simpa using List.of_mem_filter mem]
  rfl

/-! ## What is read -/

lemma introduced_samples {known : List (List Char)} {n : String} (here : n.toList ∈ known)
    {ss : List (Sample V)} (same : ∀ s ∈ ss, s.name = n) {rest : List Line}
    (h : Exposition.Introduced known rest) :
    Exposition.Introduced known (ss.map (Sample.line fmt) ++ rest) := by
  induction ss with
  | nil => exact h
  | cons s ss ih =>
    refine ⟨?_, ih fun t mem => same t (List.mem_cons_of_mem _ mem)⟩
    rw [same s (List.mem_cons_self ..)]
    exact here

/-- Families of different names introduce each name once. -/
lemma introduced_families (ss : List (Sample V)) {ns : List String} (nodup : ns.Nodup)
    (some : ∀ n ∈ ns, ss.filter (fun s => s.name = n) ≠ []) {known : List (List Char)}
    (new : ∀ n ∈ ns, n.toList ∉ known) {rest : List Line}
    (h : Exposition.Introduced (known ++ ns.map String.toList) rest) :
    Exposition.Introduced known
      (ns.flatMap (fun n => familyLines fmt (ss.filter fun s => s.name = n)) ++ rest) := by
  induction ns generalizing known with
  | nil => simpa using h
  | cons n ns ih =>
    obtain ⟨fresh, nodup⟩ := List.nodup_cons.mp nodup
    have same : ∀ s ∈ ss.filter fun s => s.name = n, s.name = n := fun s mem => by
      simpa using List.of_mem_filter mem
    rw [List.flatMap_cons, List.append_assoc]
    cases found : ss.filter fun s => s.name = n with
    | nil => exact absurd found (some n (List.mem_cons_self ..))
    | cons s ts =>
      rw [found] at same
      have name := same s (List.mem_cons_self ..)
      rw [familyLines, List.append_assoc, name]
      refine ⟨new n (List.mem_cons_self ..), introduced_samples fmt (by simp) same ?_⟩
      refine ih nodup (fun m mem => some m (List.mem_cons_of_mem _ mem)) ?_ (by simpa using h)
      intro m mem
      rw [List.mem_append, List.mem_singleton, String.toList_inj, not_or]
      exact ⟨new m (List.mem_cons_of_mem _ mem), fun eq => fresh (eq ▸ mem)⟩

/-- **The lines that are meant introduce each name once and before its samples**. -/
lemma introduced_linesOf (ss : List (Sample V)) (known : List (List Char)) (rest : List Line)
    (new : ∀ n ∈ names ss, n.toList ∉ known)
    (h : Exposition.Introduced (known ++ (names ss).map String.toList) rest) :
    Exposition.Introduced known (linesOf fmt ss ++ rest) :=
  introduced_families fmt ss (nodup_names ss) (fun _ mem nil => filter_eq_nil_iff.mp nil mem) new h

/-- Parts of different names are together what they are parts of. -/
lemma perm_flatMap_filter {ns : List String} (nodup : ns.Nodup) {ss : List (Sample V)}
    (all : ∀ s ∈ ss, s.name ∈ ns) : (ns.flatMap fun n => ss.filter fun s => s.name = n).Perm ss := by
  induction ns generalizing ss with
  | nil =>
    cases ss with
    | nil => exact .nil
    | cons s ss => cases all s (List.mem_cons_self ..)
  | cons n ns ih =>
    obtain ⟨fresh, nodup⟩ := List.nodup_cons.mp nodup
    rw [List.flatMap_cons]
    have others : (ns.flatMap fun m => ss.filter fun s => s.name = m) =
        ns.flatMap fun m => (ss.filter fun s => s.name ≠ n).filter fun s => s.name = m := by
      refine List.flatMap_congr fun m mem => ?_
      rw [List.filter_filter]
      refine List.filter_congr fun s _ => ?_
      by_cases same : s.name = m
      · subst same
        have other : s.name ≠ n := fun eq => fresh (eq ▸ mem)
        simp [other]
      · simp [same]
    rw [others]
    have left : ∀ s ∈ ss.filter fun s => s.name ≠ n, s.name ∈ ns := fun s mem => by
      have other : s.name ≠ n := by simpa using List.of_mem_filter mem
      exact (List.mem_cons.mp (all s (List.mem_of_mem_filter mem))).resolve_left other
    refine ((ih nodup left).append_left _).trans ?_
    simpa using List.filter_append_perm (fun s : Sample V => s.name = n) ss

/-- **The samples among the lines that are meant are those that were added**. -/
lemma samples_linesOf (ss : List (Sample V)) :
    ((linesOf fmt ss).filter Line.isSample).Perm (ss.map (Sample.line fmt)) := by
  have each : ∀ ts : List (Sample V), (familyLines fmt ts).filter Line.isSample =
      ts.map (Sample.line fmt) := by
    intro ts
    cases ts with
    | nil => rfl
    | cons t ts =>
      have all : ∀ ts : List (Sample V), (ts.map (Sample.line fmt)).filter Line.isSample =
          ts.map (Sample.line fmt) := by
        intro ts
        rw [List.filter_eq_self]
        intro l mem
        obtain ⟨s, -, rfl⟩ := List.mem_map.mp mem
        rfl
      exact all (t :: ts)
  rw [linesOf, List.filter_flatMap]
  simp only [each]
  rw [← List.map_flatMap]
  exact (perm_flatMap_filter (nodup_names ss) fun s mem => mem_names_iff.mpr ⟨s, mem, rfl⟩).map _

end Metrics

end StormDrive
