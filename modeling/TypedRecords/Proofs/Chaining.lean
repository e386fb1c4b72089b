import Mathlib.Data.List.Perm.Basic
import TypedRecords.Proofs.Grammar
import TypedRecords.Record

/-!
# Directives given one after the other

A declaration puts the directive texts that it is given behind one another, with commas between them. The items of the
whole are those of the texts in turn, so it reads exactly if every text reads by itself and no two of them give
directives of one kind, and the texts may come in any order.
-/

namespace TypedRecords

theorem findSome?_perm {f : α → Option β} {l l' : List α} (hp : l.Perm l')
    (h : l.countP (fun a => (f a).isSome) ≤ 1) : l.findSome? f = l'.findSome? f := by
  induction hp with
  | nil => rfl
  | cons a hp ih =>
    rw [List.findSome?_cons, List.findSome?_cons]
    cases ha : f a with
    | none => exact ih (by simpa [ha] using h)
    | some b => rfl
  | swap a a' l =>
    simp only [List.countP_cons] at h
    simp only [List.findSome?_cons]
    cases ha : f a with
    | none => rfl
    | some b =>
      cases ha' : f a' with
      | none => rfl
      | some b' =>
        simp [ha, ha'] at h
  | trans hp hp' ih ih' => exact (ih h).trans (ih' (hp.countP_eq _ ▸ h))

theorem countP_snoc_le_one {p : α → Bool} {l : List α} {a : α} :
    (l ++ [a]).countP p ≤ 1 ↔ l.countP p ≤ 1 ∧ ¬ (l.any p = true ∧ p a = true) := by
  have hany : l.any p = true ↔ 0 < l.countP p := by rw [List.countP_pos_iff, List.any_eq_true]
  rw [List.countP_append, List.countP_singleton, hany]
  by_cases ha : p a = true
  · simp only [ha, if_true, and_true]
    omega
  · simp [ha]

theorem forall₂_snoc_left {r : α → β → Prop} {as : List α} {a : α} {bs : List β} :
    List.Forall₂ r (as ++ [a]) bs ↔ ∃ bs' b, List.Forall₂ r as bs' ∧ r a b ∧ bs = bs' ++ [b] := by
  refine ⟨?_, ?_⟩
  · intro h
    rcases List.eq_nil_or_concat bs with rfl | ⟨bs', b, rfl⟩
    · simp at h
    · rw [List.concat_eq_append] at h ⊢
      have hlen : as.length = bs'.length := by simpa using h.length_eq
      have hl := List.forall₂_take_append _ _ _ h
      have hr := List.forall₂_drop_append _ _ _ h
      rw [← hlen, List.take_left] at hl
      rw [← hlen, List.drop_left] at hr
      exact ⟨bs', b, hl, (List.forall₂_cons.mp hr).1, rfl⟩
  · intro h
    obtain ⟨bs', b, h, hb, rfl⟩ := h
    exact List.rel_append h (.cons hb .nil)

namespace Directives

def Apart (a b : Directives) : Prop := ¬ (a.skip = true ∧ b.skip = true) ∧ ¬ (a.rename.isSome = true ∧ b.rename.isSome = true)

def join (a b : Directives) : Directives := ⟨a.rename.or b.rename, a.skip || b.skip⟩

def gather (each : List Directives) : Directives := ⟨each.findSome? (·.rename), each.any (·.skip)⟩

/-! ## Two texts -/

theorem of_append (given given' : List Directive) : of (given ++ given') = (of given).join (of given') := by
  simp only [of, join, List.findSome?_append, List.contains_eq_mem, List.mem_append, Bool.decide_or]

theorem skip_of {given : List Directive} : (of given).skip = true ↔ .skip ∈ given := List.contains_iff_mem

theorem isSome_rename_of {given : List Directive} :
    (of given).rename.isSome = true ↔ ∃ name, .rename name ∈ given := by
  rw [of, List.findSome?_isSome_iff]
  refine ⟨?_, ?_⟩
  · intro h
    obtain ⟨d, hd, hn⟩ := h
    cases d with
    | skip => cases hn
    | rename name => exact ⟨name, hd⟩
  · intro h
    obtain ⟨name, hd⟩ := h
    exact ⟨_, hd, rfl⟩

theorem consistent_append {given given' : List Directive} :
    Consistent (given ++ given') ↔ Consistent given ∧ Consistent given' ∧ (of given).Apart (of given') := by
  have hkinds : (∀ d ∈ given, ∀ d' ∈ given', d.sameKind d' = false) ↔ (of given).Apart (of given') := by
    rw [Apart, skip_of, skip_of, isSome_rename_of, isSome_rename_of]
    refine ⟨?_, ?_⟩
    · intro h
      refine ⟨?_, ?_⟩
      · intro h
        obtain ⟨hs, hs'⟩ := h
        exact absurd (h _ hs _ hs') (by decide)
      · intro h
        obtain ⟨⟨name, hn⟩, name', hn'⟩ := h
        exact absurd (h _ hn _ hn') (by simp [Directive.sameKind])
    · intro h d hd d' hd'
      cases d with
      | skip =>
        cases d' with
        | skip => exact absurd ⟨hd, hd'⟩ h.1
        | rename name' => rfl
      | rename name =>
        cases d' with
        | skip => rfl
        | rename name' => exact absurd ⟨⟨name, hd⟩, name', hd'⟩ h.2
  rw [Consistent, List.pairwise_append, hkinds]
  rfl

/-- A text and one after a comma read exactly if both read and can stand together. -/
theorem read_append {before text : String} {ds : Directives} : read (before ++ ", " ++ text) = .ok ds ↔
    ∃ a b, read before = .ok a ∧ read text = .ok b ∧ a.Apart b ∧ ds = a.join b := by
  simp only [read_eq_ok_iff, items_append]
  refine ⟨?_, ?_⟩
  · intro h
    obtain ⟨given, hg, hc, rfl⟩ := h
    have hl := List.forall₂_take_append given _ _ hg
    have hr := List.forall₂_drop_append given _ _ hg
    rw [← List.take_append_drop (items before).length given, consistent_append] at hc
    refine ⟨_, _, ⟨_, hl, hc.1, rfl⟩, ⟨_, hr, hc.2.1, rfl⟩, hc.2.2, ?_⟩
    rw [← of_append, List.take_append_drop]
  · intro h
    obtain ⟨_, _, ⟨given, hg, hc, rfl⟩, ⟨given', hg', hc', rfl⟩, ha, rfl⟩ := h
    exact ⟨given ++ given', List.rel_append hg hg', consistent_append.mpr ⟨hc, hc', ha⟩, (of_append ..).symm⟩

/-! ## Any number of texts -/

theorem gather_singleton (e : Directives) : gather [e] = e := by
  simp [gather]

theorem gather_snoc (each : List Directives) (b : Directives) : gather (each ++ [b]) = (gather each).join b := by
  simp [gather, join, List.findSome?_append]

theorem gather_perm {each each' : List Directives} (hp : each.Perm each')
    (h : each.countP (·.rename.isSome) ≤ 1) : gather each = gather each' := by
  rw [gather, gather, findSome?_perm hp h, hp.any_eq]

theorem apart_gather {each : List Directives} {b : Directives} : (gather each).Apart b ↔
    ¬ (each.any (·.skip) = true ∧ b.skip = true) ∧ ¬ (each.any (·.rename.isSome) = true ∧ b.rename.isSome = true) := by
  simp [Apart, gather]

end Directives

def Link.text : Link → String
  | .directive text => text
  | .rename property => "rename(" ++ property ++ ")"

namespace FieldDecl

def chunks (d : FieldDecl R) (links : List Link) : List String := d.directive.toList ++ links.map Link.text

variable {typeName : String} {d : FieldDecl R} {links : List Link}

theorem link_eq (d : FieldDecl R) (l : Link) : FieldSpec.link d l = d.addDirective l.text := by
  cases l <;> rfl

theorem chunks_snoc (l : Link) : d.chunks (links ++ [l]) = d.chunks links ++ [l.text] := by
  simp [chunks]

theorem link_snoc (l : Link) :
    (links ++ [l]).foldl FieldSpec.link d = (links.foldl FieldSpec.link d).addDirective l.text := by
  rw [List.foldl_append, List.foldl_cons, List.foldl_nil, link_eq]

theorem directives_addDirective {text : String} {ds : Directives} :
    (d.addDirective text).directives typeName = .ok ds ↔
      ∃ a b, d.directives typeName = .ok a ∧ Directives.read text = .ok b ∧ a.Apart b ∧ ds = a.join b := by
  unfold directives addDirective
  cases d.directive with
  | none =>
    simp only [mapError_eq_ok, Except.ok.injEq, exists_and_left, exists_eq_left']
    simp [Directives.Apart, Directives.join, Directives.none]
  | some before => simp only [mapError_eq_ok, Directives.read_append]

theorem items_chunks : ((links.foldl FieldSpec.link d).directive.map Directives.items).getD [] =
    (d.chunks links).flatMap Directives.items := by
  induction links using List.reverseRecOn with
  | nil =>
    show (d.directive.map Directives.items).getD [] = (d.directive.toList ++ []).flatMap Directives.items
    cases d.directive <;> simp
  | append_singleton links l ih =>
    rw [link_snoc, chunks_snoc, List.flatMap_append, List.flatMap_singleton, ← ih, addDirective]
    cases (links.foldl FieldSpec.link d).directive with
    | none => simp
    | some before => simp [Directives.items_append]

theorem directives_links {ds : Directives} : (links.foldl FieldSpec.link d).directives typeName = .ok ds ↔
    ∃ each, List.Forall₂ (fun text e => Directives.read text = .ok e) (d.chunks links) each ∧
      each.countP (·.skip) ≤ 1 ∧ each.countP (·.rename.isSome) ≤ 1 ∧ ds = .gather each := by
  induction links using List.reverseRecOn generalizing ds with
  | nil =>
    show d.directives typeName = .ok ds ↔ _
    unfold directives chunks
    cases d.directive with
    | none =>
      simp only [Option.toList_none, List.map_nil, List.append_nil, List.forall₂_nil_left_iff, exists_eq_left]
      simp [Directives.gather, Directives.none, eq_comm]
    | some text =>
      simp only [mapError_eq_ok, Option.toList_some, List.map_nil, List.append_nil, List.forall₂_cons_left_iff,
        List.forall₂_nil_left_iff]
      refine ⟨?_, ?_⟩
      · intro h
        exact ⟨[ds], ⟨ds, [], h, rfl, rfl⟩, List.countP_le_length, List.countP_le_length,
          (Directives.gather_singleton ds).symm⟩
      · intro h
        obtain ⟨_, ⟨e, _, he, rfl, rfl⟩, -, -, rfl⟩ := h
        rw [Directives.gather_singleton]
        exact he
  | append_singleton links l ih =>
    rw [link_snoc, directives_addDirective, chunks_snoc]
    simp only [ih, forall₂_snoc_left]
    refine ⟨?_, ?_⟩
    · intro h
      obtain ⟨_, b, ⟨each, hr, hs, hn, rfl⟩, hb, ha, rfl⟩ := h
      rw [Directives.apart_gather] at ha
      exact ⟨each ++ [b], ⟨each, b, hr, hb, rfl⟩, countP_snoc_le_one.mpr ⟨hs, ha.1⟩, countP_snoc_le_one.mpr ⟨hn, ha.2⟩,
        (Directives.gather_snoc each b).symm⟩
    · intro h
      obtain ⟨_, ⟨each, b, hr, hb, rfl⟩, hs, hn, rfl⟩ := h
      rw [countP_snoc_le_one] at hs hn
      exact ⟨_, b, ⟨each, hr, hs.1, hn.1, rfl⟩, hb, Directives.apart_gather.mpr ⟨hs.2, hn.2⟩,
        Directives.gather_snoc each b⟩

/-- The directives of a declaration are read text by text: every text that it was given reads by itself, at most one of
them gives a skip and at most one a rename, and together they give what any of them gives. Its items are those of the
texts in turn, so none spans two of them, and texts in another order that give anything give the same. -/
theorem directives_chained (typeName : String) (d : FieldDecl R) (links : List Link) :
    (∀ ds, (links.foldl FieldSpec.link d).directives typeName = .ok ds ↔
      ∃ each, List.Forall₂ (fun text e => Directives.read text = .ok e) (d.chunks links) each ∧
        each.countP (·.skip) ≤ 1 ∧ each.countP (·.rename.isSome) ≤ 1 ∧
        ds = ⟨each.findSome? (·.rename), each.any (·.skip)⟩) ∧
    (∀ text, (links.foldl FieldSpec.link d).directive = some text →
      Directives.items text = (d.chunks links).flatMap Directives.items) ∧
    ∀ (d' : FieldDecl R) (links' : List Link), (d'.chunks links').Perm (d.chunks links) → ∀ ds,
      (links.foldl FieldSpec.link d).directives typeName = .ok ds →
        (links'.foldl FieldSpec.link d').directives typeName = .ok ds := by
  refine ⟨fun _ => directives_links, ?_, ?_⟩
  · intro text h
    rw [← items_chunks, h]
    rfl
  · intro d' links' hp ds h
    obtain ⟨each, hr, hs, hn, rfl⟩ := directives_links.mp h
    obtain ⟨each', hr', hp'⟩ := List.perm_comp_forall₂ hp hr
    rw [← hp'.countP_eq] at hs hn
    exact directives_links.mpr ⟨each', hr', hs, hn, (Directives.gather_perm hp' hn).symm⟩

theorem directives_chained_skip (typeName : String) :
    ((FieldDecl.skipped "shadow" : FieldDecl Unit).rename " Name ").directives typeName = .ok ⟨some "Name", true⟩ ∧
    (((⟨"shadow", none, none⟩ : FieldDecl Unit).rename " Name ").addDirective "skip").directives typeName =
      .ok ⟨some "Name", true⟩ := by
  have hchunks : Directives.read "skip" = .ok ⟨none, true⟩ ∧
      Directives.read "rename( Name )" = .ok ⟨some "Name", false⟩ := ⟨by decide, by decide⟩
  obtain ⟨hread, -, horder⟩ := directives_chained typeName (FieldDecl.skipped "shadow" : FieldDecl Unit) [.rename " Name "]
  have h := (hread ⟨some "Name", true⟩).mpr
    ⟨[⟨none, true⟩, ⟨some "Name", false⟩], .cons hchunks.1 (.cons hchunks.2 .nil), by decide, by decide, rfl⟩
  exact ⟨h, horder ⟨"shadow", none, none⟩ [.rename " Name ", .directive "skip"] (List.Perm.swap ..) _ h⟩

end FieldDecl

end TypedRecords
