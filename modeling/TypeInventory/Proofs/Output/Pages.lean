import Mathlib
import TypeInventory.Page

set_option relaxedAutoImplicit false
set_option autoImplicit false

/-!
# Pages and their texts

The text of a page quotes nothing and counts nothing: its parts follow each other, line by line, and
the sections are told apart by blank lines and titles, which a line about a member might look like.
They can be told apart all the same. The head has a fixed number of lines, the first blank line
behind the title of the methods ends their section, because a line about a method is never blank,
and whatever comes behind the title of the fields is about fields.

## Main definitions

* `Text.upperHexValue` — the number that digits in base sixteen stand for.
* `IsSingleLine`, `Page.HasSingleLines` — texts without a line break, and pages made of them.

## Main results

* `Text.upperHexValue_upperHex` — a number is read back from its digits.
* `Page.join_terminated_inj` — lines are read back from a text.
* `Page.lines_inj` — the parts of a page are read back from its lines.
* `Page.isSome_ofType?` — the types that have a page.
* `Page.ofType?_faithful` — pages are told by their texts, and tell of the accepted members.
-/

namespace TypeInventory

/-! ## Lists with a separator -/

/-- What stands before the first separator, and what stands behind it. -/
lemma append_separator_inj {α : Type*} {x : α} {xs ys r s : List α} (hxs : x ∉ xs) (hys : x ∉ ys) :
    xs ++ x :: r = ys ++ x :: s ↔ xs = ys ∧ r = s := by
  induction xs generalizing ys with
  | nil =>
    cases ys with
    | nil => simp
    | cons y ys =>
      have hy : x ≠ y := fun h => hys (h ▸ List.mem_cons_self)
      simp [hy]
  | cons z zs ih =>
    cases ys with
    | nil =>
      have hz : z ≠ x := fun h => hxs (h ▸ List.mem_cons_self)
      simp [hz]
    | cons y ys =>
      have hrest := ih (fun h => hxs (List.mem_cons_of_mem z h))
        (fun h => hys (List.mem_cons_of_mem y h))
      rw [List.cons_append, List.cons_append, List.cons.injEq, List.cons.injEq, hrest, and_assoc]

/-! ## Numbers in base sixteen -/

namespace Text

/-- The digits of a number: those of its sixteenth, unless that is zero, and a last one. -/
lemma hexDigits_eq (n : ℕ) :
    hexDigits n = (if n < 16 then [] else hexDigits (n / 16)) ++ [Nat.digitChar (n % 16)] := by
  unfold hexDigits
  split_ifs with hn
  · rw [Nat.toDigits_of_lt_base hn, Nat.mod_eq_of_lt hn, List.nil_append]
  · exact Nat.toDigits_of_base_le (by decide) (Nat.le_of_not_lt hn)

/-- A digit of a number is one of sixteen. -/
lemma exists_of_mem_hexDigits {n : ℕ} {c : Char} (h : c ∈ hexDigits n) :
    ∃ d < 16, c = Nat.digitChar d := by
  induction n using Nat.strongRecOn with
  | ind n ih =>
    rw [hexDigits_eq, List.mem_append, List.mem_singleton] at h
    rcases h with h | rfl
    · split_ifs at h with hn
      · cases h
      · exact ih (n / 16) (by omega) h
    · exact ⟨n % 16, Nat.mod_lt n (by decide), rfl⟩

/-- The value of a digit in base sixteen with capital letters. -/
def upperHexDigitValue (c : Char) : ℕ :=
  "0123456789ABCDEF".toList.idxOf c

/-- The number that digits in base sixteen with capital letters stand for. -/
def upperHexValue (s : String) : ℕ :=
  s.toList.foldl (fun n c => n * 16 + upperHexDigitValue c) 0

lemma upperHexDigitValue_digitChar :
    ∀ d < 16, upperHexDigitValue (Nat.digitChar d).toUpper = d := by
  decide

/-- **A number is read back** from its digits in base sixteen.

**Proof sketch.** By strong induction, along the last digit. -/
lemma upperHexValue_upperHex (n : ℕ) : upperHexValue (upperHex n) = n := by
  induction n using Nat.strongRecOn with
  | ind n ih =>
    have hlast := upperHexDigitValue_digitChar (n % 16) (Nat.mod_lt n (by decide))
    unfold upperHexValue upperHex at ih ⊢
    simp only [String.toList_ofList] at ih ⊢
    rw [hexDigits_eq, List.map_append, List.foldl_append, List.map_singleton, List.foldl_cons,
      List.foldl_nil, hlast]
    split_ifs with hn
    · rw [List.map_nil, List.foldl_nil]
      omega
    · rw [ih (n / 16) (by omega)]
      omega

end Text

/-- Different tokens are written differently in a report. -/
lemma Token.reportText_inj {t u : Token} : t.reportText = u.reportText ↔ t = u := by
  refine ⟨fun h => ?_, congrArg _⟩
  have hdigits := (String.append_right_inj "0x").mp h
  have hvalue := congrArg Text.upperHexValue hdigits
  rw [Text.upperHexValue_upperHex, Text.upperHexValue_upperHex] at hvalue
  cases t
  cases u
  exact congrArg Token.mk (UInt32.toNat_inj.mp hvalue)

/-! ## Single lines -/

/-- A text without a line break. -/
def IsSingleLine (s : String) : Prop :=
  '\n' ∉ s.toList

instance (s : String) : Decidable (IsSingleLine s) :=
  inferInstanceAs (Decidable ('\n' ∉ s.toList))

lemma isSingleLine_append {s t : String} :
    IsSingleLine (s ++ t) ↔ IsSingleLine s ∧ IsSingleLine t := by
  rw [IsSingleLine, String.toList_append, List.mem_append, not_or]
  rfl

/-- A token is written on one line. -/
lemma Token.isSingleLine_reportText (t : Token) : IsSingleLine t.reportText := by
  have hdigit : ∀ d < 16, '\n' ≠ (Nat.digitChar d).toUpper := by decide
  refine isSingleLine_append.mpr ⟨by decide, ?_⟩
  intro hmem
  rw [Text.upperHex, String.toList_ofList, List.mem_map] at hmem
  obtain ⟨c, hc, hbreak⟩ := hmem
  obtain ⟨d, hd, rfl⟩ := Text.exists_of_mem_hexDigits hc
  exact hdigit d hd hbreak.symm

namespace Page

/-- A text of lines starts with the first of them. -/
lemma toList_join_terminated_cons (line : String) (lines : List String) :
    (String.join ((line :: lines).map terminated)).toList =
      line.toList ++ '\n' :: (String.join (lines.map terminated)).toList := by
  simp [String.toList_join, terminated]

/-- **Lines are read back** from a text that holds each with its end. -/
lemma join_terminated_inj {lines lines' : List String} (h : ∀ line ∈ lines, IsSingleLine line)
    (h' : ∀ line ∈ lines', IsSingleLine line) :
    String.join (lines.map terminated) = String.join (lines'.map terminated) ↔ lines = lines' := by
  refine ⟨fun htext => ?_, fun hlines => by rw [hlines]⟩
  rw [← String.toList_inj] at htext
  induction lines generalizing lines' with
  | nil =>
    cases lines' with
    | nil => rfl
    | cons line' lines' =>
      rw [toList_join_terminated_cons] at htext
      simp at htext
  | cons line lines ih =>
    cases lines' with
    | nil =>
      rw [toList_join_terminated_cons] at htext
      simp at htext
    | cons line' lines' =>
      rw [toList_join_terminated_cons, toList_join_terminated_cons,
        append_separator_inj (h line List.mem_cons_self) (h' line' List.mem_cons_self),
        String.toList_inj] at htext
      obtain ⟨rfl, hrest⟩ := htext
      rw [ih (fun l hl => h l (List.mem_cons_of_mem _ hl))
        (fun l hl => h' l (List.mem_cons_of_mem _ hl)) hrest]

/-! ## The lines of a page -/

/-- The pages whose full name and lines hold no line break. -/
structure HasSingleLines (p : Page) : Prop where
  /-- The full name is on one line. -/
  fullName : IsSingleLine p.fullName
  /-- So is what is told of a method. -/
  methodLines : ∀ line ∈ p.methodLines, IsSingleLine line
  /-- So is what is told of a field. -/
  fieldLines : ∀ line ∈ p.fieldLines, IsSingleLine line

instance (p : Page) : Decidable p.HasSingleLines :=
  decidable_of_iff (IsSingleLine p.fullName ∧ (∀ line ∈ p.methodLines, IsSingleLine line) ∧
      ∀ line ∈ p.fieldLines, IsSingleLine line)
    ⟨fun h => ⟨h.1, h.2.1, h.2.2⟩, fun h => ⟨h.fullName, h.methodLines, h.fieldLines⟩⟩

/-- The lines of a page: two that differ from page to page, three that do not, the methods, and the
fields behind a blank line and two more. -/
lemma lines_eq (p : Page) :
    p.lines = ("Class: " ++ p.fullName) :: ("Token: " ++ p.token.reportText) :: "" :: "Methods:" ::
      "=======" :: (p.methodLines ++ "" :: "Fields:" :: "=====" :: p.fieldLines) := by
  simp [lines]

/-- Titles hold no line break either. -/
lemma HasSingleLines.isSingleLine_of_mem {p : Page} (h : p.HasSingleLines) :
    ∀ line ∈ p.lines, IsSingleLine line := by
  have hhead : IsSingleLine ("Class: " ++ p.fullName) :=
    isSingleLine_append.mpr ⟨by decide, h.fullName⟩
  have htoken : IsSingleLine ("Token: " ++ p.token.reportText) :=
    isSingleLine_append.mpr ⟨by decide, p.token.isSingleLine_reportText⟩
  have htitles : ∀ title ∈ ["", "Methods:", "=======", "Fields:", "====="], IsSingleLine title := by
    decide
  simp only [List.forall_mem_cons] at htitles
  obtain ⟨hblank, hmethods, hunder, hfields, hunder', -⟩ := htitles
  rw [lines_eq]
  simp only [List.forall_mem_cons, List.forall_mem_append]
  exact ⟨hhead, htoken, hblank, hmethods, hunder, h.methodLines, hblank, hfields, hunder',
    h.fieldLines⟩

/-- **The parts of a page are read back** from its lines, as long as no line about a method is
blank. -/
lemma lines_inj {p q : Page} (hp : "" ∉ p.methodLines) (hq : "" ∉ q.methodLines) :
    p.lines = q.lines ↔ p.fullName = q.fullName ∧ p.token = q.token ∧
      p.methodLines = q.methodLines ∧ p.fieldLines = q.fieldLines := by
  simp only [lines_eq, List.cons.injEq, append_separator_inj hp hq, String.append_right_inj,
    Token.reportText_inj, true_and]

/-- **The parts of a page are read back** from its text. -/
lemma HasSingleLines.text_inj {p q : Page} (hp : p.HasSingleLines) (hq : q.HasSingleLines)
    (hpblank : "" ∉ p.methodLines) (hqblank : "" ∉ q.methodLines) :
    p.text = q.text ↔ p.fullName = q.fullName ∧ p.token = q.token ∧
      p.methodLines = q.methodLines ∧ p.fieldLines = q.fieldLines := by
  rw [text, text, join_terminated_inj hp.isSingleLine_of_mem hq.isSingleLine_of_mem,
    lines_inj hpblank hqblank]

/-! ## The page of a type -/

section OfType

variable {filters : Filters} {t : TypeInfo} {p : Page}

/-- A page that is there is the page of the type, lines or not. -/
lemma eq_of_ofType?_eq_some (h : ofType? filters t = some p) : p = ofType filters t := by
  unfold ofType? at h
  simp only at h
  split_ifs at h
  exact (Option.some.inj h).symm

/-- A line about a method is not blank. -/
lemma blank_notMem_methodLines (h : ofType? filters t = some p) : "" ∉ p.methodLines := by
  rw [eq_of_ofType?_eq_some h]
  intro hmem
  obtain ⟨m, -, hline⟩ := List.mem_map.mp hmem
  have hlength := congrArg String.length hline
  simp [methodLine] at hlength

variable (filters t) in
/-- The page of a type has no lines exactly when no member is accepted. -/
lemma isEmpty_ofType :
    (ofType filters t).isEmpty =
      !(t.methods.any filters.acceptsMethod || t.fields.any acceptsField) := by
  rw [Bool.eq_iff_iff]
  simp [isEmpty, ofType, List.isEmpty_iff]

variable (filters t) in
/-- **The types that have a page** are those with an accepted member. -/
lemma isSome_ofType? :
    (ofType? filters t).isSome =
      (t.methods.any filters.acceptsMethod || t.fields.any acceptsField) := by
  unfold ofType?
  simp only [isEmpty_ofType]
  cases t.methods.any filters.acceptsMethod || t.fields.any acceptsField <;> rfl

end OfType

/-- **Pages are faithful.** Two pages whose full names and lines hold no line break have the same
text exactly when they agree in full name, token, and the lines about methods and fields. A type has
a page exactly when a method or a field of it is accepted, and the page has one line for each that
is, in the order of declaration.

**Proof sketch.** Lines end at line breaks (`join_terminated_inj`). The first blank line behind the
title of the methods ends them, since the lines about methods start with a word of their own, and
digits in base sixteen stand for one number (`lines_inj`). -/
theorem ofType?_faithful :
    (∀ (filters filters' : Filters) (t t' : TypeInfo) (p p' : Page),
      ofType? filters t = some p → ofType? filters' t' = some p' →
      p.HasSingleLines → p'.HasSingleLines →
        (p.text = p'.text ↔ p.fullName = p'.fullName ∧ p.token = p'.token ∧
          p.methodLines = p'.methodLines ∧ p.fieldLines = p'.fieldLines)) ∧
    ∀ (filters : Filters) (t : TypeInfo),
      ((ofType? filters t).isSome ↔
        (∃ m ∈ t.methods, filters.acceptsMethod m) ∨ ∃ f ∈ t.fields, acceptsField f) ∧
      ∀ p, ofType? filters t = some p →
        p.fullName = t.fullName ∧ p.token = t.token ∧
        p.methodLines = (t.methods.filter filters.acceptsMethod).map methodLine ∧
        p.fieldLines = (t.fields.filter acceptsField).map fieldLine := by
  constructor
  · intro filters filters' t t' p p' hp hp' hlines hlines'
    exact hlines.text_inj hlines' (blank_notMem_methodLines hp) (blank_notMem_methodLines hp')
  · intro filters t
    constructor
    · rw [isSome_ofType?, Bool.or_eq_true, List.any_eq_true, List.any_eq_true]
    · intro p hp
      rw [eq_of_ofType?_eq_some hp]
      exact ⟨rfl, rfl, rfl, rfl⟩

/-- A type with two methods, one of which implements a property, and two fields, one of which was
made by a compiler. -/
def guardType : TypeInfo where
  name := "Guard"
  fullName := "Game.Guard"
  token := ⟨0x2000003⟩
  methods := [
    { name := "Attack", token := ⟨0x6000007⟩, returnType := .primitive "Void" },
    { name := "get_Health", token := ⟨0x6000008⟩, returnType := .primitive "Int32" }]
  fields := [
    { name := "health", access := .declaringType, token := ⟨0x400000A⟩,
      type := .primitive "Int32" },
    { name := "<Owner>k__BackingField", token := ⟨0x400000B⟩, type := .plain "Guard" }]

/-- The page of the guard. -/
def guardPage : Page where
  name := "Guard"
  fullName := "Game.Guard"
  token := ⟨0x2000003⟩
  methodLines := ["Method: public void Attack(), Token: 0x6000007"]
  fieldLines := ["private int health, Token: 0x400000A"]

/-- The page of the guard where methods with another name are asked for. -/
def restPage : Page :=
  { guardPage with methodLines := [] }

/-- The guard has both pages, according to what is asked for, and their texts differ. -/
theorem ofType?_faithful_guard :
    ofType? {} guardType = some guardPage ∧
      ofType? { methodName := some "Rest" } guardType = some restPage ∧
      guardPage.HasSingleLines ∧ restPage.HasSingleLines ∧ guardPage.text ≠ restPage.text := by
  have hguard : ofType? {} guardType = some guardPage := by decide +kernel
  have hrest : ofType? { methodName := some "Rest" } guardType = some restPage := by decide +kernel
  have hguardLines : guardPage.HasSingleLines := by decide +kernel
  have hrestLines : restPage.HasSingleLines := by decide +kernel
  refine ⟨hguard, hrest, hguardLines, hrestLines, fun htext => ?_⟩
  obtain ⟨-, -, hmethods, -⟩ := (ofType?_faithful.1 {} { methodName := some "Rest" } guardType
    guardType guardPage restPage hguard hrest hguardLines hrestLines).mp htext
  cases hmethods

end Page

end TypeInventory
