import Mathlib.Data.List.Chain
import TypedRecords.Catalog
import TypedRecords.Session

/-!
# Errors and their sources

An error may have another error as its source, and that one a source in turn. The text of an error ends with the text of
its source, the chain of an error is the texts of all its sources, and the positions in nested arrays stand in it from the
outside in.
-/

namespace TypedRecords

inductive Failure
  | query (e : QueryError)
  | decode (e : DecodeError)
  | coercion (e : CoercionError)
  | text (message : String)

def Fault.failure : Fault → Failure
  | .text message => .text message
  | .coercion e => .coercion e

/-! ## One source -/

def CoercionError.source? : CoercionError → Option Failure
  | .element _ source => some (.coercion source)
  | _ => none

-- a schema error is passed on as it is: it is no source, and has none
def DecodeError.source? : DecodeError → Option Failure
  | .schema _ | .missing .. => none
  | .coercion _ _ _ source => some (.coercion source)
  | .hook _ source | .fetch _ _ source => some source.failure

-- so is a decoding error, which keeps its own source
def QueryError.source? : QueryError → Option Failure
  | .failed _ source => some (.text source)
  | .decode e => e.source?

namespace Failure

def source? : Failure → Option Failure
  | .query e => e.source?
  | .decode e => e.source?
  | .coercion e => e.source?
  | .text _ => none

def message : Failure → String
  | .query e => e.message
  | .decode e => e.message
  | .coercion e => e.message
  | .text message => message

def chain : Failure → List String
  | .query e => e.chain
  | .decode e => e.chain
  | .coercion e => e.chain
  | .text _ => []

end Failure

def EndsWith (outer inner : String) : Prop := ∃ front, outer = front ++ inner

@[simp] theorem message_failure (fault : Fault) : fault.failure.message = fault.message := by
  cases fault <;> rfl

@[simp] theorem chain_failure (fault : Fault) : fault.failure.chain = fault.chain := by
  cases fault <;> rfl

theorem CoercionError.of_source? {e : CoercionError} {g : Failure} (h : e.source? = some g) :
    EndsWith e.message g.message ∧ e.chain = g.message :: g.chain := by
  cases e with
  | element i source =>
    cases h
    exact ⟨⟨"array element " ++ toString i ++ ": ", rfl⟩, rfl⟩
  | mismatch _ _ | outOfRange _ _ | timestamp _ _ => cases h

theorem CoercionError.chain_of_source?_eq_none {e : CoercionError} (h : e.source? = none) : e.chain = [] := by
  cases e with
  | element _ _ => cases h
  | mismatch _ _ | outOfRange _ _ | timestamp _ _ => rfl

theorem DecodeError.of_source? {e : DecodeError} {g : Failure} (h : e.source? = some g) :
    EndsWith e.message g.message ∧ e.chain = g.message :: g.chain := by
  cases e with
  | schema _ | missing _ _ _ => cases h
  | coercion record property field source =>
    cases h
    exact ⟨⟨_, rfl⟩, rfl⟩
  | hook _ source | fetch _ _ source =>
    cases h
    rw [message_failure, chain_failure]
    exact ⟨⟨_, rfl⟩, rfl⟩

theorem DecodeError.chain_of_source?_eq_none {e : DecodeError} (h : e.source? = none) : e.chain = [] := by
  cases e with
  | schema _ | missing _ _ _ => rfl
  | coercion _ _ _ _ | hook _ _ | fetch _ _ _ => cases h

theorem QueryError.of_source? {e : QueryError} {g : Failure} (h : e.source? = some g) :
    EndsWith e.message g.message ∧ e.chain = g.message :: g.chain := by
  cases e with
  | failed query source =>
    cases h
    exact ⟨⟨_, rfl⟩, rfl⟩
  | decode e => exact DecodeError.of_source? h

namespace Failure

variable {f g : Failure} {gs : List Failure}

theorem of_source? (h : f.source? = some g) : EndsWith f.message g.message ∧ f.chain = g.message :: g.chain := by
  cases f with
  | query e => exact QueryError.of_source? h
  | decode e => exact DecodeError.of_source? h
  | coercion e => exact CoercionError.of_source? h
  | text _ => cases h

theorem chain_of_source?_eq_none (h : f.source? = none) : f.chain = [] := by
  cases f with
  | query e =>
    cases e with
    | failed _ _ => cases h
    | decode e => exact DecodeError.chain_of_source?_eq_none h
  | decode e => exact DecodeError.chain_of_source?_eq_none h
  | coercion e => exact CoercionError.chain_of_source?_eq_none h
  | text _ => rfl

/-! ## All sources -/

/-- The source, its source and so on to an error without one. -/
inductive Sources : Failure → List Failure → Prop
  | none {f : Failure} : f.source? = none → Sources f []
  | some {f g : Failure} {gs : List Failure} : f.source? = some g → Sources g gs → Sources f (g :: gs)

theorem Sources.chain (h : f.Sources gs) : gs.map message = f.chain := by
  induction h with
  | none hf => rw [List.map_nil, chain_of_source?_eq_none hf]
  | some hf _ ih => rw [List.map_cons, ih, (of_source? hf).2]

theorem Sources.endsWith (h : f.Sources gs) : (f.message :: gs.map message).IsChain EndsWith := by
  induction h with
  | none _ => exact .singleton _
  | some hf _ ih => exact .cons_cons (of_source? hf).1 ih

theorem Sources.unique {gs' : List Failure} (h : f.Sources gs) (h' : f.Sources gs') : gs' = gs := by
  induction h generalizing gs' with
  | none hf =>
    cases h' with
    | none _ => rfl
    | some hf' _ => rw [hf] at hf'; cases hf'
  | some hf _ ih =>
    cases h' with
    | none hf' => rw [hf] at hf'; cases hf'
    | some hf' h' =>
      rw [hf] at hf'
      cases hf'
      rw [ih h']

theorem Sources.congr (h : f.Sources gs) (hfg : f.source? = g.source?) : g.Sources gs := by
  cases h with
  | none hf => exact .none (hfg ▸ hf)
  | some hf h => exact .some (hfg ▸ hf) h

theorem exists_sources_coercion (e : CoercionError) : ∃ gs, (coercion e).Sources gs := by
  induction e with
  | element i source ih =>
    obtain ⟨gs, h⟩ := ih
    exact ⟨_, .some rfl h⟩
  | mismatch _ _ | outOfRange _ _ | timestamp _ _ => exact ⟨[], .none rfl⟩

theorem exists_sources_fault (fault : Fault) : ∃ gs, fault.failure.Sources gs := by
  cases fault with
  | text _ => exact ⟨[], .none rfl⟩
  | coercion e => exact exists_sources_coercion e

theorem exists_sources_decode (e : DecodeError) : ∃ gs, (decode e).Sources gs := by
  cases e with
  | schema _ | missing _ _ _ => exact ⟨[], .none rfl⟩
  | coercion _ _ _ source =>
    obtain ⟨gs, h⟩ := exists_sources_coercion source
    exact ⟨_, .some rfl h⟩
  | hook _ source | fetch _ _ source =>
    obtain ⟨gs, h⟩ := exists_sources_fault source
    exact ⟨_, .some rfl h⟩

theorem exists_sources_query (e : QueryError) : ∃ gs, (query e).Sources gs := by
  cases e with
  | failed _ source => exact ⟨[.text source], .some rfl (.none rfl)⟩
  | decode e =>
    obtain ⟨gs, h⟩ := exists_sources_decode e
    exact ⟨gs, h.congr rfl⟩

end Failure

/-! ## Positions in arrays -/

namespace CoercionError

def path : CoercionError → List Nat
  | .element i source => i :: source.path
  | _ => []

/-- One text for each position, which it names before the next text, and one for what is wrong there. -/
structure Traced (e : CoercionError) (texts : List String) : Prop where
  length : texts.length = 1 + e.path.length
  element : ∀ i (h : i < e.path.length), ∃ inner, texts[i + 1]? = some inner ∧
    texts[i]? = some ("array element " ++ toString e.path[i] ++ ": " ++ inner)

theorem traced (e : CoercionError) : e.Traced (e.message :: e.chain) := by
  induction e with
  | mismatch _ _ | outOfRange _ _ | timestamp _ _ => exact ⟨rfl, nofun⟩
  | element i source ih =>
    refine ⟨?_, ?_⟩
    · rw [chain, path, List.length_cons, ih.length, List.length_cons, Nat.add_assoc]
    · intro k hk
      cases k with
      | zero => exact ⟨source.message, rfl, rfl⟩
      | succ k => exact ih.element k (Nat.lt_of_succ_lt_succ hk)

end CoercionError

-- the texts of a conversion error that is passed on are its own
def Fault.Traced : Fault → List String → Prop
  | .text message, texts => texts = [message]
  | .coercion e, texts => e.Traced texts

theorem Fault.traced (fault : Fault) : fault.Traced (fault.message :: fault.chain) := by
  cases fault with
  | text message => rfl
  | coercion e => exact e.traced

def DecodeError.Traced : DecodeError → List String → Prop
  | .schema _, texts | .missing .., texts => texts = []
  | .coercion _ _ _ source, texts => source.Traced texts
  | .hook _ source, texts | .fetch _ _ source, texts => source.Traced texts

theorem DecodeError.traced (e : DecodeError) : e.Traced e.chain := by
  cases e with
  | schema _ | missing _ _ _ => rfl
  | coercion _ _ _ source => exact source.traced
  | hook _ source | fetch _ _ source => exact source.traced

/-- Every error of a query, and every decoding error, has one list of sources. Their texts are its chain, each of them
ends the text before it, and they are as many as the error calls for: none for a schema or a missing field, else one, and
one more for each array that a conversion error is inside of. A query that fails in decoding fails as the decoding does. -/
theorem texts_of_sources (e : QueryError) :
    ∃ gs, (Failure.query e).Sources gs ∧ (∀ gs', (Failure.query e).Sources gs' → gs' = gs) ∧
      let texts := gs.map Failure.message
      texts = e.chain ∧ (e.message :: texts).IsChain EndsWith ∧
      (∀ query source, e = .failed query source → texts = [source]) ∧
      ∀ d, e = .decode d →
        (Failure.decode d).Sources gs ∧ texts = d.chain ∧ e.message = d.message ∧ d.Traced texts := by
  obtain ⟨gs, h⟩ := Failure.exists_sources_query e
  refine ⟨gs, h, fun _ h' => h.unique h', ?_⟩
  intro texts
  have htexts : texts = e.chain := h.chain
  refine ⟨htexts, h.endsWith, ?_, ?_⟩
  · rintro query source rfl
    exact htexts
  · rintro d rfl
    exact ⟨h.congr rfl, htexts, rfl, htexts ▸ d.traced⟩

theorem texts_of_sources_matrix :
    let matrix := Catalog.generic "matrix" (.list (.list (.option (.int (.fixed .i16)))))
    let bag : Bag := ⟨[("Value", .array [.array [.null], .array [.string "x"]])]⟩
    let s := (Session.start (fun _ => matrix) .strict).setQuery "all" (.ok [bag.object])
    let source : CoercionError := .mismatch ⟨"string"⟩ ⟨"i16"⟩
    let e : QueryError := .decode (.coercion 0 "Value" "value" (.element 1 (.element 0 source)))
    (s.query "M" "all").result.result = .error e ∧
    ∃ gs, (Failure.query e).Sources gs ∧ gs.map Failure.message =
      ["array element 1: array element 0: cannot convert string value into i16",
       "array element 0: cannot convert string value into i16", "cannot convert string value into i16"] := by
  intro matrix bag s source e
  obtain ⟨gs, h, -, htexts, -⟩ := texts_of_sources e
  exact ⟨rfl, gs, h, htexts⟩

end TypedRecords
