import TypedRecords.Proofs.Building
import TypedRecords.Proofs.Grammar

/-!
# Renames as text

A rename puts its name between parentheses without looking at it. The text that results reads only if the name
is one, white space at its ends apart. A comma would end the item that starts with the word, and the
parenthesis after the name then has to end another rename.
-/

namespace TypedRecords

theorem exists_mem_of_forall₂ {r : α → β → Prop} {as : List α} {bs : List β} (h : List.Forall₂ r as bs) {b : β}
    (hb : b ∈ bs) : ∃ a ∈ as, r a b := by
  induction h with
  | nil => cases hb
  | cons hr _ ih =>
    rcases List.mem_cons.mp hb with rfl | hb
    · exact ⟨_, List.mem_cons_self .., hr⟩
    · obtain ⟨a, ha, h⟩ := ih hb
      exact ⟨a, List.mem_cons_of_mem _ ha, h⟩

theorem Directive.Spells.rename_of_head {d : Directive} {item : List Char} (h : d.Spells item)
    (hr : item.head? = some 'r') : ∃ name, d = .rename name := by
  cases h with
  | skip => exact absurd hr (by decide)
  | rename => exact ⟨_, rfl⟩

theorem Directive.Spells.rename_of_last {d : Directive} {item : List Char} (h : d.Spells item)
    (hr : item.getLast? = some ')') : ∃ name, d = .rename name := by
  cases h with
  | skip => exact absurd hr (by decide)
  | rename => exact ⟨_, rfl⟩

namespace Directives

/-! ## The text of a rename -/

theorem toList_rename (name : String) :
    ("rename(" ++ name ++ ")").toList = "rename".toList ++ '(' :: (name.toList ++ [')']) := by simp

section
variable {name : String}

theorem items_rename_of_not_mem (h : ',' ∉ name.toList) :
    items ("rename(" ++ name ++ ")") = ["rename".toList ++ '(' :: (name.toList ++ [')'])] := by
  have hbare : Bare ("rename".toList ++ '(' :: (name.toList ++ [')'])) := by
    refine ⟨?_, ?_⟩
    · intro c hc
      cases hc
      decide
    · intro c hc
      rw [← List.cons_append, ← List.append_assoc, List.getLast?_concat] at hc
      cases hc
      decide
  unfold items
  rw [toList_rename, splitCommas_of_not_mem (by simp [h]), List.map_singleton, trim_of_bare hbare]

/-- A name with a comma makes a text whose first and last items can only be renames. -/
theorem not_consistent_of_mem (h : ',' ∈ name.toList) {given : List Directive}
    (hg : List.Forall₂ Directive.Spells given (items ("rename(" ++ name ++ ")"))) : ¬ Consistent given := by
  obtain ⟨a, b, hab, ha⟩ := List.eq_append_cons_of_mem h
  have htext : ("rename(" ++ name ++ ")").toList = ("rename(".toList ++ a) ++ ',' :: (b ++ [')']) := by
    simp [hab]
  obtain ⟨pieces, p, hlast⟩ := splitCommas_concat (show ')' ≠ ',' by decide) b
  have hitems : items ("rename(" ++ name ++ ")") =
      trim ("rename(".toList ++ a) :: (pieces.map trim ++ [trim (p ++ [')'])]) := by
    unfold items
    rw [htext, splitCommas_append, splitCommas_of_not_mem (by simp [ha]), hlast]
    simp
  rw [hitems, List.forall₂_cons_right_iff] at hg
  obtain ⟨d, rest, hd, hrest, rfl⟩ := hg
  obtain ⟨d', hd', hs⟩ := exists_mem_of_forall₂ hrest (List.mem_append_right _ (List.mem_singleton_self _))
  obtain ⟨n, rfl⟩ := hd.rename_of_head (head?_trim (show isBlank 'r' = false by decide) _)
  obtain ⟨n', rfl⟩ := hs.rename_of_last (getLast?_trim (show isBlank ')' = false by decide) p)
  intro hc
  exact absurd ((List.pairwise_cons.mp hc).1 _ hd') (by simp [Directive.sameKind])

theorem not_mem_of_isName {property : List Char} (ht : Trims name.toList property) (hn : IsName property) :
    ',' ∉ name.toList := by
  obtain ⟨s, t, hs, hu, h, -⟩ := ht
  have hblank : ∀ l, Blank l → ',' ∉ l := fun l hl hc => absurd (hl ',' hc) (by decide)
  have hplain : ',' ∉ property := fun hc => (hn.plain ',' hc).2.2.2 rfl
  simp [h, hblank s hs, hblank t hu, hplain]

theorem spells_rename_iff {d : Directive} : d.Spells ("rename".toList ++ '(' :: (name.toList ++ [')'])) ↔
    ∃ property : String, Trims name.toList property.toList ∧ IsName property.toList ∧ d = .rename property := by
  refine ⟨?_, ?_⟩
  · intro h
    generalize hitem : "rename".toList ++ '(' :: (name.toList ++ [')']) = item at h
    cases h with
    | skip => exact absurd (congrArg List.head? hitem) (by simp)
    | @rename s t property u hs ht hn hu =>
      rw [List.append_assoc, List.append_cancel_left_eq] at hitem
      cases s with
      | nil =>
        rw [List.nil_append, List.cons.injEq, List.append_cancel_right_eq] at hitem
        refine ⟨String.ofList property, ?_, by simpa using hn, rfl⟩
        rw [String.toList_ofList]
        exact ⟨t, u, ht, hu, hitem.2, hn.bare⟩
      | cons c s =>
        -- the parenthesis would be white space
        rw [List.cons_append, List.cons.injEq] at hitem
        exact absurd (hs c (List.mem_cons_self ..)) (by rw [← hitem.1]; decide)
  · intro h
    obtain ⟨property, ⟨t, u, ht, hu, hname, -⟩, hn, rfl⟩ := h
    rw [hname]
    simpa using Directive.Spells.rename blank_nil ht hn hu

theorem given_rename_iff {given : List Directive} :
    List.Forall₂ Directive.Spells given (items ("rename(" ++ name ++ ")")) ∧ Consistent given ↔
      ∃ property : String, Trims name.toList property.toList ∧ IsName property.toList ∧ given = [.rename property] := by
  by_cases hc : ',' ∈ name.toList
  · refine ⟨?_, ?_⟩
    · intro h
      exact absurd h.2 (not_consistent_of_mem hc h.1)
    · intro h
      obtain ⟨property, ht, hn, -⟩ := h
      exact absurd hc (not_mem_of_isName ht hn)
  · rw [items_rename_of_not_mem hc]
    simp only [List.forall₂_cons_right_iff, List.forall₂_nil_right_iff, spells_rename_iff]
    refine ⟨?_, ?_⟩
    · intro h
      obtain ⟨⟨d, _, ⟨property, ht, hn, rfl⟩, rfl, rfl⟩, -⟩ := h
      exact ⟨property, ht, hn, rfl⟩
    · intro h
      obtain ⟨property, ht, hn, rfl⟩ := h
      exact ⟨⟨_, [], ⟨property, ht, hn, rfl⟩, rfl, rfl⟩, List.pairwise_singleton ..⟩

theorem read_rename_iff {ds : Directives} : read ("rename(" ++ name ++ ")") = .ok ds ↔
    ∃ property : String, Trims name.toList property.toList ∧ IsName property.toList ∧ ds = ⟨some property, false⟩ := by
  rw [read_eq_ok_iff]
  refine ⟨?_, ?_⟩
  · intro h
    obtain ⟨given, hg, hc, rfl⟩ := h
    obtain ⟨property, ht, hn, rfl⟩ := given_rename_iff.mp ⟨hg, hc⟩
    exact ⟨property, ht, hn, rfl⟩
  · intro h
    obtain ⟨property, ht, hn, rfl⟩ := h
    obtain ⟨hg, hc⟩ := given_rename_iff.mpr ⟨property, ht, hn, rfl⟩
    exact ⟨_, hg, hc, rfl⟩

theorem given_skip_iff {given : List Directive} {text : String} :
    List.Forall₂ Directive.Spells given (items ("skip" ++ ", " ++ text)) ↔
      ∃ rest, given = .skip :: rest ∧ List.Forall₂ Directive.Spells rest (items text) := by
  rw [items_append, show items "skip" = ["skip".toList] from rfl, List.singleton_append, List.forall₂_cons_right_iff]
  refine ⟨?_, ?_⟩
  · intro h
    obtain ⟨d, rest, hd, hrest, rfl⟩ := h
    have hread : (.ok .skip : Except Malformed Directive) = .ok d := hd.read
    cases hread
    exact ⟨rest, rfl, hrest⟩
  · intro h
    obtain ⟨rest, rfl, hrest⟩ := h
    exact ⟨_, rest, .skip, hrest, rfl⟩

theorem read_skip_rename_iff {ds : Directives} : read ("skip" ++ ", " ++ ("rename(" ++ name ++ ")")) = .ok ds ↔
    ∃ property : String, Trims name.toList property.toList ∧ IsName property.toList ∧ ds = ⟨some property, true⟩ := by
  rw [read_eq_ok_iff]
  refine ⟨?_, ?_⟩
  · intro h
    obtain ⟨given, hg, hc, rfl⟩ := h
    obtain ⟨rest, rfl, hrest⟩ := given_skip_iff.mp hg
    obtain ⟨property, ht, hn, rfl⟩ := given_rename_iff.mp ⟨hrest, hc.of_cons⟩
    exact ⟨property, ht, hn, rfl⟩
  · intro h
    obtain ⟨property, ht, hn, rfl⟩ := h
    obtain ⟨hrest, -⟩ := given_rename_iff.mpr ⟨property, ht, hn, rfl⟩
    exact ⟨_, given_skip_iff.mpr ⟨_, rfl, hrest⟩, List.pairwise_pair.mpr rfl, rfl⟩

end

end Directives

/-! ## One declaration -/

namespace Schema

theorem build_singleton {typeName : String} {d : FieldDecl R} {s : Schema R} : build typeName [d] = .ok s ↔
    ∃ ds, d.directives typeName = .ok ds ∧ (ds.skip = false → d.slot ≠ none) ∧
      s = ⟨typeName, [⟨ds.rename.getD d.field, d.field, ds.skip, d.slot⟩]⟩ := by
  rw [build_eq_ok]
  simp only [FieldDecl.directives_eq_ok]
  refine ⟨?_, ?_⟩
  · intro h
    obtain ⟨hacc, rfl⟩ := h
    have hu := hacc.usable d (List.mem_singleton_self d)
    exact ⟨d.given, ⟨hu.reads, rfl⟩, hu.slot, rfl⟩
  · intro h
    obtain ⟨_, ⟨hr, rfl⟩, hs, rfl⟩ := h
    exact ⟨⟨List.forall_mem_singleton.mpr ⟨hr, hs⟩, by simp, List.pairwise_singleton ..⟩, rfl⟩

/-- A rename of a field builds when its name is one, white space at its ends apart, and gives the field that
property, whether the field is skipped or not. -/
theorem build_rename_iff (typeName field name : String) (slot : Slot R) :
    (∀ s, build typeName [(FieldDecl.ofSlot field slot).rename name] = .ok s ↔
      ∃ property : String, Trims name.toList property.toList ∧ IsName property.toList ∧
        s = ⟨typeName, [⟨property, field, false, some slot⟩]⟩) ∧
    (∀ s, build typeName [(FieldDecl.skipped field : FieldDecl R).rename name] = .ok s ↔
      ∃ property : String, Trims name.toList property.toList ∧ IsName property.toList ∧
        s = ⟨typeName, [⟨property, field, true, none⟩]⟩) ∧
    ∀ ds, Directives.read ("rename(" ++ name ++ ")") = .ok ds ↔
      ∃ property : String, Trims name.toList property.toList ∧ IsName property.toList ∧
        ds = ⟨some property, false⟩ := by
  have hslot : ∀ ds, ((FieldDecl.ofSlot field slot).rename name).directives typeName = .ok ds ↔
      Directives.read ("rename(" ++ name ++ ")") = .ok ds := fun _ => mapError_eq_ok
  have hskip : ∀ ds, ((FieldDecl.skipped field : FieldDecl R).rename name).directives typeName = .ok ds ↔
      Directives.read ("skip" ++ ", " ++ ("rename(" ++ name ++ ")")) = .ok ds := fun _ => mapError_eq_ok
  refine ⟨?_, ?_, fun _ => Directives.read_rename_iff⟩
  · intro s
    simp only [build_singleton, hslot, Directives.read_rename_iff]
    refine ⟨?_, ?_⟩
    · intro h
      obtain ⟨_, ⟨property, ht, hn, rfl⟩, -, rfl⟩ := h
      exact ⟨property, ht, hn, rfl⟩
    · intro h
      obtain ⟨property, ht, hn, rfl⟩ := h
      exact ⟨_, ⟨property, ht, hn, rfl⟩, fun _ => nofun, rfl⟩
  · intro s
    simp only [build_singleton, hskip, Directives.read_skip_rename_iff]
    refine ⟨?_, ?_⟩
    · intro h
      obtain ⟨_, ⟨property, ht, hn, rfl⟩, -, rfl⟩ := h
      exact ⟨property, ht, hn, rfl⟩
    · intro h
      obtain ⟨property, ht, hn, rfl⟩ := h
      exact ⟨_, ⟨property, ht, hn, rfl⟩, nofun, rfl⟩

example : Directives.read ("rename(" ++ "A), skip, rename(B" ++ ")") = .error (.repeated "rename(B)") := by decide

end Schema

end TypedRecords
