import TypedRecords.Proofs.Folding
import TypedRecords.Proofs.Items
import TypedRecords.Schema

/-!
# The grammar of directive texts

An item is a directive when it is the word `skip`, or the word `rename` and a name in parentheses, with white
space allowed around the parentheses and the name. A text reads when each of its items is a directive and no
two are of one kind. Otherwise the first item that is no directive, or repeats an earlier one, is reported.
-/

namespace TypedRecords

structure IsName (cs : List Char) : Prop where
  ne_nil : cs ≠ []
  plain : ∀ c ∈ cs, isBlank c = false ∧ c ≠ '(' ∧ c ≠ ')' ∧ c ≠ ','

inductive Directive.Spells : Directive → List Char → Prop
  | skip : Spells .skip "skip".toList
  | rename {s t name u} : Blank s → Blank t → IsName name → Blank u →
      Spells (.rename (String.ofList name)) ("rename".toList ++ s ++ '(' :: (t ++ name ++ u ++ [')']))

/-- The word and the arguments of an item. The arguments start at the first parenthesis that opens. -/
def Opens (item word arguments : List Char) : Prop :=
  (∃ s, Blank s ∧ item = word ++ s ++ arguments) ∧ ∀ c, arguments.head? = some c → c = '('

inductive Malformed.Describes : Malformed → List Char → Prop
  | empty : Describes .empty []
  | skipArguments {item arguments} : Opens item "skip".toList arguments → arguments ≠ [] → Describes .skipArguments item
  | renameForm {item arguments} : Opens item "rename".toList arguments →
      (∀ inside, arguments ≠ '(' :: (inside ++ [')'])) → Describes .renameForm item
  | emptyName {item inside} : Opens item "rename".toList ('(' :: (inside ++ [')'])) → Blank inside →
      Describes .emptyName item
  | nameCharacter {item inside name} : Opens item "rename".toList ('(' :: (inside ++ [')'])) → Trims inside name →
      name ≠ [] → ¬ IsName name → Describes .nameCharacter item
  | unknown {item} : item ≠ [] → (∀ arguments, ¬ Opens item "skip".toList arguments) →
      (∀ arguments, ¬ Opens item "rename".toList arguments) → Describes .unknown item

/-! ## One item -/

theorem isName_iff {cs : List Char} : IsName cs ↔ cs ≠ [] ∧ cs.all isNameChar = true := by
  have hchar : ∀ c, isNameChar c = true ↔ isBlank c = false ∧ c ≠ '(' ∧ c ≠ ')' ∧ c ≠ ',' := by
    intro c
    simp [isNameChar, and_assoc]
  rw [List.all_eq_true]
  simp only [hchar]
  exact ⟨fun h => ⟨h.ne_nil, h.plain⟩, fun h => ⟨h.1, h.2⟩⟩

theorem IsName.bare {cs : List Char} (h : IsName cs) : Bare cs where
  head c hc := (h.plain c (List.mem_of_mem_head? hc)).1
  last c hc := (h.plain c (List.mem_of_mem_getLast? hc)).1

theorem opens_iff {item word arguments : List Char} (hp : '(' ∉ word)
    (hl : ∀ c, word.getLast? = some c → isBlank c = false) :
    Opens item word arguments ↔
      trimEnd (item.takeWhile (· ≠ '(')) = word ∧ item.dropWhile (· ≠ '(') = arguments := by
  refine ⟨?_, ?_⟩
  · intro h
    obtain ⟨⟨s, hs, rfl⟩, ha⟩ := h
    have hfront : ∀ c ∈ word ++ s, decide (c ≠ '(') = true := by
      intro c hc
      rcases List.mem_append.mp hc with hc | hc
      · simpa using fun h : c = '(' => hp (h ▸ hc)
      · simpa using fun h : c = '(' => by simpa [h, isBlank] using hs c hc
    have htake : arguments.takeWhile (· ≠ '(') = [] := by
      cases arguments with
      | nil => rfl
      | cons c arguments => simp [ha c rfl]
    have hdrop : arguments.dropWhile (· ≠ '(') = arguments := by
      cases arguments with
      | nil => rfl
      | cons c arguments => simp [ha c rfl]
    refine ⟨?_, ?_⟩
    · rw [List.takeWhile_append_of_pos hfront, htake, List.append_nil, trimEnd_append word hs, trimEnd_eq_self hl]
    · rw [List.dropWhile_append_of_pos hfront, hdrop]
  · intro h
    obtain ⟨rfl, rfl⟩ := h
    obtain ⟨t, ht, hw⟩ := exists_trimEnd (item.takeWhile (· ≠ '('))
    refine ⟨⟨t, ht, ?_⟩, ?_⟩
    · rw [← hw, List.takeWhile_append_dropWhile]
    · intro c hc
      have := List.head?_dropWhile_not (fun c => decide (c ≠ '(')) item
      rw [hc] at this
      simpa using this

theorem opens_skip {item arguments : List Char} : Opens item "skip".toList arguments ↔
    trimEnd (item.takeWhile (· ≠ '(')) = ['s', 'k', 'i', 'p'] ∧ item.dropWhile (· ≠ '(') = arguments := by
  apply opens_iff (by decide)
  intro c hc
  cases hc
  decide

theorem opens_rename {item arguments : List Char} : Opens item "rename".toList arguments ↔
    trimEnd (item.takeWhile (· ≠ '(')) = ['r', 'e', 'n', 'a', 'm', 'e'] ∧ item.dropWhile (· ≠ '(') = arguments := by
  apply opens_iff (by decide)
  intro c hc
  cases hc
  decide

theorem ne_nil_of_opens {item word arguments : List Char} (h : Opens item word arguments) (hw : word ≠ []) : item ≠ [] := by
  obtain ⟨⟨s, -, rfl⟩, -⟩ := h
  simp [hw]

theorem read_of_opens_skip {item arguments : List Char} (h : Opens item "skip".toList arguments) :
    Directive.read item = if arguments = [] then .ok .skip else .error .skipArguments := by
  have hne := ne_nil_of_opens h (by decide)
  obtain ⟨hw, ha⟩ := opens_skip.mp h
  simp only [Directive.read, hw, ha, hne, if_true, if_false]

theorem read_of_opens_rename {item arguments : List Char} (h : Opens item "rename".toList arguments) :
    Directive.read item = (readName arguments).map .rename := by
  have hne := ne_nil_of_opens h (by decide)
  obtain ⟨hw, ha⟩ := opens_rename.mp h
  simp only [Directive.read, hw, ha, hne, if_false]
  rfl

theorem readName_inside (inside : List Char) : readName ('(' :: (inside ++ [')'])) =
    if trim inside = [] then .error .emptyName
    else if (trim inside).all isNameChar then .ok (String.ofList (trim inside))
    else .error .nameCharacter := by
  simp [readName]

theorem readName_of_form {arguments : List Char} (h : ∀ inside, arguments ≠ '(' :: (inside ++ [')'])) :
    readName arguments = .error .renameForm := by
  unfold readName
  split
  · rename_i rest
    by_cases hlast : rest.getLast? = some ')'
    · obtain ⟨inside, rfl⟩ := List.getLast?_eq_some_iff.mp hlast
      exact absurd rfl (h inside)
    · rw [if_neg hlast]
  · rfl

theorem Directive.Spells.read {d : Directive} {item : List Char} (h : d.Spells item) : Directive.read item = .ok d := by
  cases h with
  | skip => rfl
  | @rename s t name u hs ht hn hu =>
    have hopens : Opens ("rename".toList ++ s ++ '(' :: (t ++ name ++ u ++ [')'])) "rename".toList
        ('(' :: (t ++ name ++ u ++ [')'])) := ⟨⟨s, hs, rfl⟩, by simp⟩
    have htrim : trim (t ++ name ++ u) = name := (Trims.eq_trim ⟨t, u, ht, hu, rfl, hn.bare⟩).symm
    obtain ⟨hne, hall⟩ := isName_iff.mp hn
    rw [read_of_opens_rename hopens, readName_inside, htrim, if_neg hne, if_pos hall]
    rfl

theorem Malformed.Describes.read {reason : Malformed} {item : List Char} (h : reason.Describes item) :
    Directive.read item = .error reason := by
  cases h with
  | empty => rfl
  | skipArguments ho ha => rw [read_of_opens_skip ho, if_neg ha]
  | renameForm ho hf =>
    rw [read_of_opens_rename ho, readName_of_form hf]
    rfl
  | emptyName ho hb =>
    rw [read_of_opens_rename ho, readName_inside, if_pos (trim_eq_nil.mpr hb)]
    rfl
  | nameCharacter ho ht hne hn =>
    cases ht.eq_trim
    have hall : ¬ (trim _).all isNameChar = true := fun h => hn (isName_iff.mpr ⟨hne, h⟩)
    rw [read_of_opens_rename ho, readName_inside, if_neg hne, if_neg hall]
    rfl
  | unknown hne hs hr =>
    have hw₁ := fun h => hs _ (opens_skip.mpr ⟨h, rfl⟩)
    have hw₂ := fun h => hr _ (opens_rename.mpr ⟨h, rfl⟩)
    simp only [Directive.read]
    rw [if_neg hne, if_neg hw₁, if_neg hw₂]

theorem exists_spells_or_describes {item : List Char} (hb : Bare item) :
    (∃ d : Directive, d.Spells item) ∨ ∃ reason : Malformed, reason.Describes item := by
  by_cases hne : item = []
  · exact .inr ⟨.empty, hne ▸ .empty⟩
  by_cases hs : ∃ arguments, Opens item "skip".toList arguments
  · obtain ⟨arguments, ho⟩ := hs
    by_cases ha : arguments = []
    · obtain ⟨⟨s, hs, hitem⟩, -⟩ := ho
      -- an item does not end in white space, so none follows the word
      have hword : item = "skip".toList := by
        rw [← trimEnd_eq_self hb.last, hitem, ha, List.append_nil, trimEnd_append _ hs]
        rfl
      exact .inl ⟨.skip, hword ▸ .skip⟩
    · exact .inr ⟨_, .skipArguments ho ha⟩
  by_cases hr : ∃ arguments, Opens item "rename".toList arguments
  · obtain ⟨arguments, ho⟩ := hr
    by_cases hf : ∃ inside, arguments = '(' :: (inside ++ [')'])
    · obtain ⟨inside, rfl⟩ := hf
      by_cases hi : Blank inside
      · exact .inr ⟨_, .emptyName ho hi⟩
      by_cases hn : IsName (trim inside)
      · obtain ⟨t, u, ht, hu, hi', -⟩ := trims_trim inside
        obtain ⟨⟨s, hblank, rfl⟩, -⟩ := ho
        rw [hi']
        exact .inl ⟨_, .rename hblank ht hn hu⟩
      · exact .inr ⟨_, .nameCharacter ho (trims_trim inside) (fun h => hi (trim_eq_nil.mp h)) hn⟩
    · exact .inr ⟨_, .renameForm ho fun inside h => hf ⟨inside, h⟩⟩
  · exact .inr ⟨_, .unknown hne (fun _ h => hs ⟨_, h⟩) fun _ h => hr ⟨_, h⟩⟩

theorem read_eq_ok {item : List Char} (hb : Bare item) {d : Directive} :
    Directive.read item = .ok d ↔ d.Spells item := by
  refine ⟨?_, Directive.Spells.read⟩
  intro h
  rcases exists_spells_or_describes hb with ⟨d', hd⟩ | ⟨reason, hr⟩
  · rw [hd.read] at h
    cases h
    exact hd
  · rw [hr.read] at h
    cases h

theorem read_eq_error {item : List Char} (hb : Bare item) {reason : Malformed} :
    Directive.read item = .error reason ↔ reason.Describes item := by
  refine ⟨?_, Malformed.Describes.read⟩
  intro h
  rcases exists_spells_or_describes hb with ⟨d, hd⟩ | ⟨reason', hr⟩
  · rw [hd.read] at h
    cases h
  · rw [hr.read] at h
    cases h
    exact hr

/-! ## Items one after the other -/

def Directive.sameKind : Directive → Directive → Bool
  | .skip, .skip | .rename _, .rename _ => true
  | _, _ => false

def Directive.name? : Directive → Option String
  | .skip => none
  | .rename name => some name

/-- At most one of the directives is a skip, and at most one a rename. -/
def Consistent (given : List Directive) : Prop := given.Pairwise fun d d' => d.sameKind d' = false

def Directives.of (given : List Directive) : Directives := ⟨given.findSome? Directive.name?, given.contains .skip⟩

theorem consistent_snoc {given : List Directive} {d : Directive} :
    Consistent (given ++ [d]) ↔ Consistent given ∧ ∀ d' ∈ given, d'.sameKind d = false := by
  simp [Consistent, List.pairwise_append]

inductive Objection (given : List Directive) (item : List Char) : DirectiveFault → Prop
  | malformed {reason} : (∀ d : Directive, ¬ d.Spells item) → reason.Describes item →
      Objection given item (.malformed reason)
  | repeated {d d' : Directive} : d.Spells item → d' ∈ given → d'.sameKind d = true →
      Objection given item (.repeated (String.ofList item))

namespace Directives

theorem any_sameKind_skip (given : List Directive) : given.any (·.sameKind .skip) = (of given).skip := by
  show _ = given.contains .skip
  induction given with
  | nil => rfl
  | cons d given ih =>
    rw [List.any_cons, ih, List.contains_cons]
    cases d <;> rfl

theorem any_sameKind_rename (given : List Directive) (name : String) :
    given.any (·.sameKind (.rename name)) = (of given).rename.isSome := by
  show _ = (given.findSome? Directive.name?).isSome
  induction given with
  | nil => rfl
  | cons d given ih =>
    rw [List.any_cons, ih, List.findSome?_cons]
    cases d <;> rfl

theorem of_snoc_skip (given : List Directive) : of (given ++ [.skip]) = { of given with skip := true } := by
  simp [of, Directive.name?]

theorem of_snoc_rename {given : List Directive} (h : (of given).rename = .none) (name : String) :
    of (given ++ [.rename name]) = { of given with rename := some name } := by
  have h' : given.findSome? Directive.name? = .none := h
  simp [of, Directive.name?, h', List.findSome?_append]

theorem add_of (given : List Directive) (item : List Char) : add (of given) item =
    match Directive.read item with
    | .error reason => .error (.malformed reason)
    | .ok d => if given.any (·.sameKind d) then .error (.repeated (String.ofList item)) else .ok (of (given ++ [d])) := by
  unfold add
  cases Directive.read item with
  | error reason => rfl
  | ok d =>
    cases d with
    | skip => simp only [any_sameKind_skip, of_snoc_skip]
    | rename name =>
      simp only [any_sameKind_rename]
      cases h : (of given).rename with
      | some before => rfl
      | none => rw [of_snoc_rename h]

section
variable {given : List Directive} {item : List Char} (hb : Bare item)
include hb

theorem add_eq_ok {ds : Directives} : add (of given) item = .ok ds ↔
    ∃ d : Directive, d.Spells item ∧ (∀ d' ∈ given, d'.sameKind d = false) ∧ ds = of (given ++ [d]) := by
  have hnone : ∀ d, given.any (·.sameKind d) = false ↔ ∀ d' ∈ given, d'.sameKind d = false := by simp
  simp only [← hnone, ← read_eq_ok hb]
  rw [add_of]
  cases Directive.read item with
  | error reason => simp
  | ok d =>
    simp only [Except.ok.injEq, exists_eq_left']
    by_cases ha : given.any (·.sameKind d) = true
    · simp [ha]
    · simp only [ha, if_false, Except.ok.injEq, true_and, Bool.false_eq_true, eq_comm]

theorem add_eq_error {fault : DirectiveFault} : add (of given) item = .error fault ↔ Objection given item fault := by
  rw [add_of]
  refine ⟨?_, ?_⟩
  · intro h
    cases hr : Directive.read item with
    | error reason =>
      rw [hr] at h
      cases h
      refine .malformed ?_ ((read_eq_error hb).mp hr)
      intro d hd
      rw [hd.read] at hr
      cases hr
    | ok d =>
      rw [hr] at h
      by_cases ha : given.any (·.sameKind d) = true
      · simp only [ha, if_true, Except.error.injEq] at h
        subst h
        obtain ⟨d', hd', hk⟩ := List.any_eq_true.mp ha
        exact .repeated ((read_eq_ok hb).mp hr) hd' hk
      · simp [ha] at h
  · intro h
    cases h with
    | malformed _ hr => rw [hr.read]
    | repeated hd hd' hk =>
      have ha : given.any (·.sameKind _) = true := List.any_eq_true.mpr ⟨_, hd', hk⟩
      simp only [hd.read, ha, if_true]

end

/-! ## Whole texts -/

theorem foldlM_add_eq_ok {items : List (List Char)} (hb : ∀ item ∈ items, Bare item) {before : List Directive}
    (hc : Consistent before) {ds : Directives} : items.foldlM add (of before) = .ok ds ↔
      ∃ given, List.Forall₂ Directive.Spells given items ∧ Consistent (before ++ given) ∧ ds = of (before ++ given) := by
  induction items generalizing before with
  | nil =>
    show Except.ok (of before) = Except.ok ds ↔ _
    simp [hc, eq_comm]
  | cons item items ih =>
    rw [List.forall_mem_cons] at hb
    have hsnoc : ∀ (d : Directive) given, before ++ d :: given = before ++ [d] ++ given := by simp
    have hbind : (item :: items).foldlM add (of before) = (add (of before) item).bind (items.foldlM add ·) := rfl
    rw [hbind, bind_eq_ok]
    simp only [List.forall₂_cons_right_iff]
    refine ⟨?_, ?_⟩
    · intro h
      obtain ⟨ds₁, h₁, h⟩ := h
      obtain ⟨d, hd, hk, rfl⟩ := (add_eq_ok hb.1).mp h₁
      obtain ⟨given, hg, hc', rfl⟩ := (ih hb.2 (consistent_snoc.mpr ⟨hc, hk⟩)).mp h
      rw [← hsnoc] at hc' ⊢
      exact ⟨d :: given, ⟨d, given, hd, hg, rfl⟩, hc', rfl⟩
    · intro h
      obtain ⟨_, ⟨d, given, hd, hg, rfl⟩, hc', hds⟩ := h
      rw [hsnoc] at hc' hds
      have hc₁ : Consistent (before ++ [d]) := hc'.sublist (List.sublist_append_left ..)
      exact ⟨_, (add_eq_ok hb.1).mpr ⟨d, hd, (consistent_snoc.mp hc₁).2, rfl⟩, (ih hb.2 hc₁).mpr ⟨given, hg, hc', hds⟩⟩

theorem read_eq_ok_iff {text : String} {ds : Directives} : read text = .ok ds ↔
    ∃ given, List.Forall₂ Directive.Spells given (items text) ∧ Consistent given ∧ ds = of given :=
  foldlM_add_eq_ok (fun _ => bare_of_mem_items) List.Pairwise.nil

theorem read_eq_error_iff {text : String} {fault : DirectiveFault} : read text = .error fault ↔
    ∃ before item after given, items text = before ++ item :: after ∧ List.Forall₂ Directive.Spells given before ∧
      Consistent given ∧ Objection given item fault := by
  unfold read
  rw [foldlM_eq_error]
  refine ⟨?_, ?_⟩
  · intro h
    obtain ⟨before, item, after, ds, hi, hb, he⟩ := h
    have hbare : ∀ item' ∈ before ++ item :: after, Bare item' := fun _ h => bare_of_mem_items (hi ▸ h)
    rw [List.forall_mem_append, List.forall_mem_cons] at hbare
    obtain ⟨given, hg, hc, rfl⟩ := (foldlM_add_eq_ok hbare.1 List.Pairwise.nil).mp hb
    exact ⟨before, item, after, given, hi, hg, hc, (add_eq_error hbare.2.1).mp he⟩
  · intro h
    obtain ⟨before, item, after, given, hi, hg, hc, ho⟩ := h
    have hbare : ∀ item' ∈ before ++ item :: after, Bare item' := fun _ h => bare_of_mem_items (hi ▸ h)
    rw [List.forall_mem_append, List.forall_mem_cons] at hbare
    exact ⟨before, item, after, of given, hi, (foldlM_add_eq_ok hbare.1 List.Pairwise.nil).mpr ⟨given, hg, hc, rfl⟩,
      (add_eq_error hbare.2.1).mpr ho⟩

end Directives

def DirectiveFault.report (typeName field text : String) : DirectiveFault → SchemaError
  | .malformed reason => .malformed typeName field text reason
  | .repeated item => .repeatedDirective typeName field item

/-- Every text has one list of items. It reads when each item spells a directive and no two are of one kind,
and gives what they come to. Otherwise the first item that spells none, or is of the kind of an earlier one, is
reported, the former with the whole text and the latter by itself. -/
theorem FieldDecl.directives_exact (typeName field text : String) (slot : Option (Slot R)) :
    ∃ items, (∀ items', Items text items' ↔ items' = items) ∧
      (∀ ds, (⟨field, some text, slot⟩ : FieldDecl R).directives typeName = .ok ds ↔
        ∃ given, List.Forall₂ Directive.Spells given items ∧ Consistent given ∧ ds = .of given) ∧
      ∀ err, (⟨field, some text, slot⟩ : FieldDecl R).directives typeName = .error err ↔
        ∃ before item after given fault, items = before ++ item :: after ∧
          List.Forall₂ Directive.Spells given before ∧ Consistent given ∧ Objection given item fault ∧
          err = fault.report typeName field text := by
  refine ⟨Directives.items text, fun _ => Directives.items_iff, ?_, ?_⟩
  · intro ds
    rw [← Directives.read_eq_ok_iff]
    exact mapError_eq_ok
  · intro err
    have hmap : (⟨field, some text, slot⟩ : FieldDecl R).directives typeName =
        (Directives.read text).mapError (DirectiveFault.report typeName field text) := rfl
    rw [hmap, mapError_eq_error]
    refine ⟨?_, ?_⟩
    · intro h
      obtain ⟨fault, hf, rfl⟩ := h
      obtain ⟨before, item, after, given, hi, hg, hc, ho⟩ := Directives.read_eq_error_iff.mp hf
      exact ⟨before, item, after, given, fault, hi, hg, hc, ho, rfl⟩
    · intro h
      obtain ⟨before, item, after, given, fault, hi, hg, hc, ho, rfl⟩ := h
      exact ⟨fault, Directives.read_eq_error_iff.mpr ⟨before, item, after, given, hi, hg, hc, ho⟩, rfl⟩

end TypedRecords
