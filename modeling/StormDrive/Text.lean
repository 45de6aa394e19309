import Mathlib.Data.List.DropRight
import Mathlib.Data.List.Infix

set_option relaxedAutoImplicit false
set_option autoImplicit false

/-!
# Text operations

The string operations a program makes when it compares names and reads messages: trimming,
comparing without regard to ASCII case, and looking for a text inside another. Strings are taken
as their lists of characters, so that each operation computes and each has its facts from `List`.

## Main definitions

* `Text.trim` — a string without the white space around it.
* `Text.eqIgnoreAsciiCase` — equality up to the case of ASCII letters.
* `Text.contains`, `Text.startsWith` — the infix and the prefix test.

## Main results

* `Text.trim_eq_self` — nothing is trimmed from a text without white space.
* `Text.contains_append_left`, `Text.contains_append_right`, `Text.contains_join` — a text is
  found in every concatenation of which it is part.
-/

namespace Text

/-! ## White space -/

/-- The code points with the Unicode property `White_Space`. -/
def isWhitespace (c : Char) : Bool :=
  let n := c.toNat
  (9 ≤ n && n ≤ 13) || n == 0x20 || n == 0x85 || n == 0xA0 || n == 0x1680 ||
    (0x2000 ≤ n && n ≤ 0x200A) || n == 0x2028 || n == 0x2029 || n == 0x202F || n == 0x205F ||
    n == 0x3000

/-- A string without the white space at its start and at its end. -/
def trim (s : String) : String :=
  String.ofList ((s.toList.dropWhile isWhitespace).rdropWhile isWhitespace)

/-- Nothing is trimmed from a text without white space. -/
lemma trim_eq_self {s : String} (h : ∀ c ∈ s.toList, isWhitespace c = false) : trim s = s := by
  have start : s.toList.dropWhile isWhitespace = s.toList := by
    rw [List.dropWhile_eq_self_iff]
    intro pos
    rw [h _ (List.getElem_mem pos)]
    exact Bool.false_ne_true
  have stop : s.toList.rdropWhile isWhitespace = s.toList := by
    rw [List.rdropWhile_eq_self_iff]
    intro ne
    rw [h _ (List.getLast_mem ne)]
    exact Bool.false_ne_true
  rw [trim, start, stop, String.ofList_toList]

/-! ## Comparing and searching -/

/-- Equality up to the case of ASCII letters. -/
def eqIgnoreAsciiCase (s t : String) : Bool :=
  s.toList.map Char.toLower == t.toList.map Char.toLower

@[simp] lemma eqIgnoreAsciiCase_refl (s : String) : eqIgnoreAsciiCase s s = true := by
  simp [eqIgnoreAsciiCase]

/-- `pat` is somewhere in `s`. -/
def contains (s pat : String) : Bool :=
  decide (pat.toList <:+: s.toList)

/-- `s` begins with `pat`. -/
def startsWith (s pat : String) : Bool :=
  pat.toList.isPrefixOf s.toList

/-- What is found in a text is found in every text that goes on after it. -/
lemma contains_append_left {s pat : String} (t : String) (h : contains s pat = true) :
    contains (s ++ t) pat = true := by
  simp only [contains, decide_eq_true_eq, String.toList_append] at h ⊢
  exact h.trans (List.prefix_append _ _).isInfix

/-- What is found in a text is found in every text that ends with it. -/
lemma contains_append_right {t pat : String} (s : String) (h : contains t pat = true) :
    contains (s ++ t) pat = true := by
  simp only [contains, decide_eq_true_eq, String.toList_append] at h ⊢
  exact h.trans (List.suffix_append _ _).isInfix

@[simp] lemma contains_self (s : String) : contains s s = true := by
  simp [contains]

/-- The texts of a list with a separator between them. -/
def join (sep : String) : List String → String
  | [] => ""
  | [s] => s
  | s :: t :: rest => s ++ sep ++ join sep (t :: rest)

/-- What is found in one of the texts joined is found in the result. -/
lemma contains_join (sep : String) {pat s : String} :
    ∀ {texts : List String}, s ∈ texts → contains s pat = true →
      contains (join sep texts) pat = true
  | [t], hs, hp => by
    obtain rfl : s = t := by simpa using hs
    exact hp
  | t :: u :: rest, hs, hp => by
    rcases List.mem_cons.mp hs with rfl | hs
    · exact contains_append_left _ (contains_append_left _ hp)
    · exact contains_append_right _ (contains_join sep hs hp)

end Text
