import SolidScene.Proofs.Script.Grammar
import SolidScene.Script.Printer

/-!
# The written form of a script is a layout

`render` puts the tokens of a script down with blanks and line breaks between them.  When all its
names are names and its numerals have no positive power of ten, what it writes is a layout of these
tokens (`layout_render`), so parsing undoes it (`parse_render`).
-/

namespace SolidScene.Script

/-- Whether a token has the spelling that it is written with. -/
def Token.isWritable : Token → Bool
  | .word name => isName name
  | .number d => d.exponent ≤ 0
  | .other => false
  | _ => true

/-- All tokens of a row have the spelling that they are written with. -/
def Writable (ts : List Token) : Prop := ∀ t ∈ ts, t.isWritable

@[simp] theorem writable_nil : Writable [] := fun _ h => absurd h List.not_mem_nil

@[simp] theorem writable_cons {t : Token} {ts : List Token} :
    Writable (t :: ts) ↔ t.isWritable ∧ Writable ts := List.forall_mem_cons

@[simp] theorem writable_append {ts us : List Token} :
    Writable (ts ++ us) ↔ Writable ts ∧ Writable us := List.forall_mem_append

@[simp] theorem writable_separated {rows : List (List Token)} :
    Writable (separated rows) ↔ ∀ row ∈ rows, Writable row := by
  induction rows with
  | nil => simp only [separated, writable_nil, List.not_mem_nil, false_implies, implies_true]
  | cons first rest ih =>
    cases rest with
    | nil => simp [separated]
    | cons second rest => simp only [separated, writable_append, writable_cons, ih,
        List.forall_mem_cons, Token.isWritable, true_and]

@[simp] theorem writable_tokensOf {body : List Statement} :
    Writable (tokensOf body) ↔ ∀ s ∈ body, Writable s.tokens := by
  induction body with
  | nil => simp only [tokensOf, writable_nil, List.not_mem_nil, false_implies, implies_true]
  | cons first rest ih => simp only [tokensOf, writable_append, ih, List.forall_mem_cons]

/-! ### Values and arguments -/

/-- Texts with commas between them lay out rows with commas between them. -/
theorem layout_joinWith {α : Type} {tokens : α → List Token} {text : α → List Char} {xs : List α}
    (hx : ∀ x ∈ xs, ∀ ts cs, EndsWord cs → Layout ts cs →
      Layout (tokens x ++ ts) (text x ++ cs))
    {ts : List Token} {cs : List Char} (hend : EndsWord cs) (h : Layout ts cs) :
    Layout (separated (xs.map tokens) ++ ts) (joinWith comma (xs.map text) ++ cs) := by
  induction xs with
  | nil => exact h
  | cons x xs ih =>
    have hrest := ih fun y hy => hx y (List.mem_cons_of_mem _ hy)
    cases xs with
    | nil => exact hx x List.mem_cons_self _ _ hend h
    | cons y ys =>
      have hcomma : Layout (.comma :: (separated ((y :: ys).map tokens) ++ ts))
          (',' :: ' ' :: (joinWith comma ((y :: ys).map text) ++ cs)) :=
        .mark rfl (.blank (by decide) hrest)
      have hlayout := hx x List.mem_cons_self _ _ (endsWord_cons (by decide) _) hcomma
      simpa [separated, joinWith, comma] using hlayout

theorem renderItems_eq_map (items : List Value) : renderItems items = items.map Value.render := by
  induction items with
  | nil => rfl
  | cons item rest ih => simp [renderItems, ih]

theorem Value.layout_render (v : Value) (hv : Writable v.tokens) {ts : List Token}
    {cs : List Char} (hend : EndsWord cs) (h : Layout ts cs) :
    Layout (v.tokens ++ ts) (v.render ++ cs) := by
  induction v generalizing ts cs with
  | number negative magnitude =>
    have hd : magnitude.exponent ≤ 0 := by
      simp only [Value.tokens, writable_append, writable_cons] at hv
      exact of_decide_eq_true hv.2.1
    cases negative with
    | false => exact .number hd hend h
    | true => exact .mark rfl (.number hd hend h)
  | word name => exact .word (writable_cons.1 hv).1 hend h
  | vector items ih =>
    simp only [Value.tokens, itemTokens_eq_map, writable_cons, writable_append,
      writable_separated] at hv
    obtain ⟨-, hitems, -⟩ := hv
    have hclose : Layout (.closeBracket :: ts) (']' :: cs) := .mark rfl h
    have hlayout := layout_joinWith
      (fun v hv _ _ => ih v hv (hitems _ (List.mem_map_of_mem hv)))
      (endsWord_cons (by decide) _) hclose
    simpa [Value.tokens, Value.render, itemTokens_eq_map, renderItems_eq_map] using
      Layout.mark (c := '[') rfl hlayout

theorem Argument.layout_render (a : Argument) (ha : Writable a.tokens) {ts : List Token}
    {cs : List Char} (hend : EndsWord cs) (h : Layout ts cs) :
    Layout (a.tokens ++ ts) (a.render ++ cs) := by
  obtain ⟨name, v⟩ := a
  cases name with
  | none => exact v.layout_render ha hend h
  | some name =>
    simp only [Argument.tokens, writable_cons] at ha
    obtain ⟨hname, -, hv⟩ := ha
    have hvalue : Layout (.equals :: (v.tokens ++ ts)) ('=' :: (v.render ++ cs)) :=
      .mark rfl (v.layout_render hv hend h)
    simpa [Argument.tokens, Argument.render] using
      Layout.word hname (endsWord_cons (by decide) _) hvalue

theorem layout_renderCall {name : String} {arguments : List Argument}
    (hcall : Writable (callTokens name arguments)) {ts : List Token} {cs : List Char}
    (h : Layout ts cs) :
    Layout (callTokens name arguments ++ ts) (renderCall name arguments ++ cs) := by
  simp only [callTokens, writable_cons, writable_append, writable_separated] at hcall
  obtain ⟨hname, -, harguments, -⟩ := hcall
  have hclose : Layout (.closeParen :: ts) (')' :: cs) := .mark rfl h
  have hlayout := layout_joinWith
    (fun a ha _ _ => Argument.layout_render a (harguments _ (List.mem_map_of_mem ha)))
    (endsWord_cons (by decide) _) hclose
  have hopen := Layout.mark (c := '(') rfl hlayout
  simpa [callTokens, renderCall] using Layout.word hname (endsWord_cons (by decide) _) hopen

/-! ### Statements -/

theorem layout_renderLines {level : Nat} {body : List Statement}
    (hbody : ∀ s ∈ body, ∀ ts cs, Layout ts cs →
      Layout (s.tokens ++ ts) (s.render level ++ cs))
    {ts : List Token} {cs : List Char} (h : Layout ts cs) :
    Layout (tokensOf body ++ ts) (renderLines level body ++ cs) := by
  induction body with
  | nil => simpa [tokensOf, renderLines] using h
  | cons s rest ih =>
    have hrest := ih fun t ht => hbody t (List.mem_cons_of_mem _ ht)
    have hline := hbody s List.mem_cons_self _ _ (Layout.blank (c := '\n') (by decide) hrest)
    simpa [tokensOf, renderLines, indentation] using Layout.blanks (4 * level) hline

theorem layout_renderBody {level : Nat} {body : List Statement}
    (hbody : ∀ s ∈ body, ∀ ts cs, Layout ts cs →
      Layout (s.tokens ++ ts) (s.render (level + 1) ++ cs))
    {ts : List Token} {cs : List Char} (h : Layout ts cs) :
    Layout (.openBrace :: (tokensOf body ++ .closeBrace :: ts))
      ('{' :: (renderBody level body ++ cs)) := by
  have hclose : Layout (.closeBrace :: ts) (indentation level ++ '}' :: cs) :=
    .blanks _ (.mark rfl h)
  have hlines := layout_renderLines hbody hclose
  simpa [renderBody] using
    Layout.mark (c := '{') rfl (Layout.blank (c := '\n') (by decide) hlines)

theorem Statement.layout_render (s : Statement) (hs : Writable s.tokens) (level : Nat)
    {ts : List Token} {cs : List Char} (h : Layout ts cs) :
    Layout (s.tokens ++ ts) (s.render level ++ cs) := by
  induction s generalizing level ts cs with
  | empty =>
    simpa [Statement.tokens, Statement.render] using Layout.mark (c := ';') rfl h
  | block body ih =>
    simp only [Statement.tokens, writable_cons, writable_append, writable_tokensOf] at hs
    obtain ⟨-, hbody, -⟩ := hs
    simpa [Statement.tokens, Statement.render] using
      layout_renderBody (fun s hs _ _ => ih s hs (hbody s hs) (level + 1)) h
  | call name arguments =>
    simp only [Statement.tokens, writable_append] at hs
    simpa [Statement.tokens, Statement.render] using
      layout_renderCall hs.1 (Layout.mark (c := ';') rfl h)
  | callBlock name arguments body ih =>
    simp only [Statement.tokens, writable_append, writable_cons, writable_tokensOf] at hs
    obtain ⟨hcall, -, hbody, -⟩ := hs
    have hblock := layout_renderBody (fun s hs _ _ => ih s hs (hbody s hs) (level + 1)) h
    simpa [Statement.tokens, Statement.render] using
      layout_renderCall hcall (Layout.blank (c := ' ') (by decide) hblock)
  | callNext name arguments next ih =>
    simp only [Statement.tokens, writable_append] at hs
    simpa [Statement.tokens, Statement.render] using
      layout_renderCall hs.1 (Layout.blank (c := ' ') (by decide) (ih hs.2 level h))

/-! ### Scripts -/

/-- The written form of a script is a layout of its tokens. -/
theorem layout_render {script : List Statement} (h : ∀ s ∈ script, Writable s.tokens) :
    Layout (tokensOf script) (render script) := by
  induction script with
  | nil => exact .nil
  | cons s rest ih =>
    obtain ⟨hs, hrest⟩ := List.forall_mem_cons.1 h
    cases rest with
    | nil => simpa [render, joinWith, tokensOf] using s.layout_render hs 0 Layout.nil
    | cons t rest =>
      have hline := s.layout_render hs 0 (Layout.blank (c := '\n') (by decide) (ih hrest))
      simpa [render, joinWith, tokensOf] using hline

/-- Parsing undoes writing. -/
theorem parse_render {script : List Statement} (hdepth : depthOf script ≤ deepest)
    (h : ∀ s ∈ script, Writable s.tokens) : parse (render script) = nodesOf script :=
  parse_of_layout hdepth (layout_render h)

end SolidScene.Script
