import ImportAtlas.Proofs.Table.Listing
import ImportAtlas.Render.Paint

/-!
# Taking colours away

A terminal takes a control sequence for a change of style and shows the rest of a text. Spans without
an escape character of their own are shown in colours with control sequences around some of them and
nothing else, so what is left when the sequences are taken away is the text that is shown plain.

## Main definitions

* `behindSequence?`: what follows a control sequence at the beginning of a text
* `withoutSequences`, `uncoloured`: a text without its control sequences
* `EscapeFree`, `SpansFree`: texts and spans without escape characters

## Main results

* `withoutSequences_append`: a text without escape characters keeps all of its characters
* `withoutSequences_controlSequence`: a control sequence is taken away as a whole
* `uncoloured_showSpans`: spans in colours, without the colours
-/

namespace ImportAtlas.Render

/-- The character that control sequences begin with. -/
def escape : Char := '\x1b'

/-- Whether a character may stand between the bracket and the `m` of a control sequence. -/
def isCode (c : Char) : Bool := c.isDigit || c == ';'

/-- What follows the control sequence for a style at the beginning of a text, if there is one: an escape
character, an opening bracket, any number of codes and an `m`. -/
def behindSequence? : List Char → Option (List Char)
  | first :: '[' :: cs =>
    if first = escape then
      match cs.dropWhile isCode with
      | 'm' :: rest => some rest
      | _ => none
    else none
  | _ => none

theorem length_lt_of_behindSequence? {cs rest : List Char} (h : behindSequence? cs = some rest) :
    rest.length < cs.length := by
  unfold behindSequence? at h
  split at h
  · next first cs =>
    split at h
    · split at h
      · next hdrop =>
        obtain rfl := Option.some.inj h
        have hle := (List.dropWhile_suffix isCode : cs.dropWhile isCode <:+ cs).length_le
        rw [hdrop, List.length_cons] at hle
        simp only [List.length_cons]
        omega
      · cases h
    · cases h
  · cases h

/-- The characters without those of control sequences. -/
def withoutSequences (cs : List Char) : List Char :=
  match _hbehind : behindSequence? cs with
  | some rest => withoutSequences rest
  | none =>
    match cs with
    | [] => []
    | c :: rest => c :: withoutSequences rest
termination_by cs.length
decreasing_by
  · exact length_lt_of_behindSequence? _hbehind
  · exact Nat.lt_succ_self _

/-- The text without its control sequences. -/
def uncoloured (text : String) : String :=
  String.ofList (withoutSequences text.toList)

example : uncoloured "\x1b[1;34mA\x1b[0m[1m \x1b[x\x1b[4" = "A[1m \x1b[x\x1b[4" := by decide +kernel

/-- Whether a text has no escape character in it. -/
def EscapeFree (text : String) : Prop := escape ∉ text.toList

instance (text : String) : Decidable (EscapeFree text) := inferInstanceAs (Decidable (_ ∉ _))

/-- Whether no text of a span has an escape character in it. -/
def SpansFree (spans : List Span) : Prop := ∀ span ∈ spans, EscapeFree span.text

/-! ## Control sequences -/

theorem behindSequence?_cons_of_ne {c : Char} (hc : c ≠ escape) (cs : List Char) :
    behindSequence? (c :: cs) = none := by
  unfold behindSequence?
  split
  · next h =>
    obtain ⟨rfl, -⟩ := List.cons.inj h
    exact if_neg hc
  · rfl

theorem behindSequence?_controlSequence {codes : String} (h : codes.toList.all isCode = true)
    (rest : List Char) :
    behindSequence? ((controlSequence codes).toList ++ rest) = some rest := by
  have hcodes : ∀ c ∈ codes.toList, isCode c = true := List.all_eq_true.mp h
  have htext : (controlSequence codes).toList ++ rest =
      escape :: '[' :: (codes.toList ++ 'm' :: rest) := by
    simp [controlSequence, escape]
  rw [htext, behindSequence?, if_pos rfl, List.dropWhile_append_of_pos hcodes]
  rfl

@[simp] theorem withoutSequences_nil : withoutSequences [] = [] := by
  rw [withoutSequences]
  rfl

theorem withoutSequences_of_some {cs rest : List Char} (h : behindSequence? cs = some rest) :
    withoutSequences cs = withoutSequences rest := by
  rw [withoutSequences]
  split
  · next other hother =>
    obtain rfl := Option.some.inj (h.symm.trans hother)
    rfl
  · next hnone => cases h.symm.trans hnone

theorem withoutSequences_cons {c : Char} (hc : c ≠ escape) (cs : List Char) :
    withoutSequences (c :: cs) = c :: withoutSequences cs := by
  rw [withoutSequences]
  split
  · next hsome => cases (behindSequence?_cons_of_ne hc cs).symm.trans hsome
  · rfl

/-- A text without escape characters keeps all of its characters. -/
theorem withoutSequences_append {cs : List Char} (h : escape ∉ cs) (rest : List Char) :
    withoutSequences (cs ++ rest) = cs ++ withoutSequences rest := by
  induction cs with
  | nil => rfl
  | cons c cs ih =>
    obtain ⟨hc, hcs⟩ : escape ≠ c ∧ escape ∉ cs := by simpa using h
    rw [List.cons_append, withoutSequences_cons hc.symm, ih hcs, List.cons_append]

/-- A control sequence is taken away as a whole. -/
theorem withoutSequences_controlSequence {codes : String} (h : codes.toList.all isCode = true)
    (rest : List Char) :
    withoutSequences ((controlSequence codes).toList ++ rest) = withoutSequences rest :=
  withoutSequences_of_some (behindSequence?_controlSequence h rest)

theorem EscapeFree.uncoloured_eq {text : String} (h : EscapeFree text) : uncoloured text = text := by
  unfold uncoloured
  -- Nothing follows the text, and nothing is left of nothing.
  have hkeep := withoutSequences_append h []
  rw [List.append_nil, withoutSequences_nil, List.append_nil] at hkeep
  rw [hkeep, String.ofList_toList]

/-! ## Spans -/

theorem Style.all_isCode {style : Style} {codes : String} (h : style.codes? = some codes) :
    codes.toList.all isCode = true := by
  cases style with
  | plain => cases h
  | bold =>
    obtain rfl := Option.some.inj h
    decide
  | coloured colour | boldColoured colour =>
    obtain rfl := Option.some.inj h
    cases colour <;> decide

/-- The colours of a span are taken away, and its text is not. -/
theorem withoutSequences_show {span : Span} (h : EscapeFree span.text) (rest : List Char) :
    withoutSequences ((span.show true).toList ++ rest) =
      (span.show false).toList ++ withoutSequences rest := by
  unfold Span.show
  cases hcodes : span.style.codes? with
  | none => exact withoutSequences_append h rest
  | some codes =>
    have hoff : ("0".toList.all isCode) = true := by decide
    dsimp only
    rw [if_pos rfl, if_neg Bool.false_ne_true, String.toList_append, String.toList_append,
      List.append_assoc, List.append_assoc,
      withoutSequences_controlSequence (Style.all_isCode hcodes), withoutSequences_append h,
      withoutSequences_controlSequence hoff]

/-- **Spans in colours, without the colours, are the spans shown plain.** -/
theorem uncoloured_showSpans {spans : List Span} (h : SpansFree spans) :
    uncoloured (showSpans true spans) = showSpans false spans := by
  have hshown : ∀ colours, (showSpans colours spans).toList =
      spans.flatMap fun span => (span.show colours).toList := by
    intro colours
    simp [showSpans, String.toList_join, List.flatMap_map]
  have hchars : withoutSequences (spans.flatMap fun span => (span.show true).toList) =
      spans.flatMap fun span => (span.show false).toList := by
    -- Each span is taken as far as its closing sequence, and the later ones are what follows it.
    clear hshown
    induction spans with
    | nil => exact withoutSequences_nil
    | cons span spans ih =>
      obtain ⟨hspan, hspans⟩ := List.forall_mem_cons.mp h
      rw [List.flatMap_cons, withoutSequences_show hspan, ih hspans, List.flatMap_cons]
  unfold uncoloured
  rw [hshown, hchars, ← hshown, String.ofList_toList]

/-! ## Texts and spans without escape characters -/

@[simp] theorem escapeFree_append {first second : String} :
    EscapeFree (first ++ second) ↔ EscapeFree first ∧ EscapeFree second := by
  simp [EscapeFree, not_or]

@[simp] theorem escapeFree_repr (n : Nat) : EscapeFree n.repr :=
  Listing.not_mem_digits (by decide) n

theorem escapeFree_join {texts : List String} (h : ∀ text ∈ texts, EscapeFree text) :
    EscapeFree (String.join texts) := by
  unfold EscapeFree
  rw [String.toList_join]
  intro hmem
  obtain ⟨text, htext, hescape⟩ := List.mem_flatMap.mp hmem
  exact h text htext hescape

@[simp] theorem spansFree_nil : SpansFree [] := fun _ h => nomatch h

@[simp] theorem spansFree_cons {span : Span} {spans : List Span} :
    SpansFree (span :: spans) ↔ EscapeFree span.text ∧ SpansFree spans :=
  List.forall_mem_cons

@[simp] theorem spansFree_append {first second : List Span} :
    SpansFree (first ++ second) ↔ SpansFree first ∧ SpansFree second :=
  List.forall_mem_append

@[simp] theorem spansFree_flatMap {α : Type} {values : List α} {spans : α → List Span} :
    SpansFree (values.flatMap spans) ↔ ∀ value ∈ values, SpansFree (spans value) := by
  simp only [SpansFree, List.mem_flatMap]
  exact ⟨fun h value hv span hs => h span ⟨value, hv, hs⟩,
    fun h span ⟨value, hv, hs⟩ => h value hv span hs⟩

@[simp] theorem spansFree_line {spans : List Span} : SpansFree (line spans) ↔ SpansFree spans := by
  unfold line plain
  simp +decide

@[simp] theorem spansFree_plainLine {text : String} :
    SpansFree (plainLine text) ↔ EscapeFree text := by
  unfold plainLine plain
  simp +decide

end ImportAtlas.Render
