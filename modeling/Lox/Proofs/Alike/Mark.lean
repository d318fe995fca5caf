import Lox.Proofs.Alike.Same
import Lox.Proofs.Alike.Shift
import Lox.Proofs.Syntax.Map

/-! Marked programs. A run of a program whose tokens are marked tells of every token in a message
whether it belongs to this program or to what was there before. -/

namespace Lox

/-- No source has a line zero. The line of a marked token is kept in its column. -/
def Token.mark (t : Token) : Token := { t with line := 0, column := t.line }

def Token.settle (n : Nat) (t : Token) : Token :=
  if t.line = 0 then { t with line := t.column + n } else t

def Failure.settle (n : Nat) (f : Failure) : Failure :=
  { f with token := f.token.map (Token.settle n) }

def Program.mark (p : Program) : Program := { p with body := mapStmts Token.mark id p.body }

variable {n : Nat}

lemma Token.settle_of_line {t : Token} (h : 1 ≤ t.line) : t.settle n = t :=
  if_neg (Nat.ne_of_gt h)

def Placement.settled (n : Nat) : Placement where
  place t t' := t'.line = (t.settle n).line
  this {t t'} h := by
    refine h.trans ?_
    unfold Token.settle
    split <;> rfl

def Variation.settled (n : Nat) : Variation := .ofPlacement (.settled n)

lemma Failure.Alike.report {f f' : Failure} (h : f.Alike (.settled n) f') :
    f'.report = (f.settle n).report := by
  obtain ⟨fault, token⟩ := f
  obtain ⟨fault', token'⟩ := f'
  obtain ⟨hfault, htoken⟩ := h
  have hsame : fault' = fault := by
    cases hfault with
    | same => rfl
    | undefined hr =>
      cases hr
      rfl
    | unassigned hr =>
      cases hr
      rfl
  subst hsame
  cases htoken with
  | none => rfl
  | @some t t' hline =>
    have hline : t'.line = (t.settle n).line := hline
    simp only [Failure.report, Failure.line?, Failure.settle, Option.map_some, hline]

section Trees

variable {Γ Δ : Type}

structure Likeness.Changes (f : Token → Token) (K : Likeness Γ) (K' : Likeness Δ)
    (G : Γ → Δ → Prop) : Prop where
  token : ∀ {t t'}, K.token t t' → K'.token (f t) t'
  loop : ∀ {t t'}, K.loop t t' → K'.loop (f t) t'
  use : ∀ {γ δ r r'}, G γ δ → K.use γ r r' → K'.use δ (r.map f) r'
  binder : ∀ {γ δ t t'}, G γ δ → K.binder γ t t' → K'.binder δ (f t) t'
  title : ∀ {γ δ t t'}, G γ δ → K.title γ t t' → K'.title δ (f t) t'
  enter : ∀ {γ δ γ₁}, G γ δ → K.enter γ γ₁ → ∃ δ₁, K'.enter δ δ₁ ∧ G γ₁ δ₁
  members : ∀ {γ δ} b, G γ δ → G (K.members b γ) (K'.members b δ)

variable {f : Token → Token} {K : Likeness Γ} {K' : Likeness Δ} {G : Γ → Δ → Prop}

lemma Likeness.Changes.binders (w : K.Changes f K' G) {γ : Γ} {δ : Δ} (hγ : G γ δ)
    {ts ts' : List Token} (h : List.Forall₂ (K.binder γ) ts ts') :
    List.Forall₂ (K'.binder δ) (ts.map f) ts' :=
  List.forall₂_map_left_iff.mpr (h.imp fun _ _ => w.binder hγ)

mutual

lemma Expr.Alike.change (w : K.Changes f K' G) {γ : Γ} {δ : Δ} (hγ : G γ δ) :
    (e e' : Expr) → e.Alike K γ e' → (e.map f id).Alike K' δ e'
  | .literal _ _, _, .literal ht => .literal (w.token ht)
  | .ref _, _, .ref hr => .ref (w.use hγ hr)
  | .assign _ value _, _, .assign hr hv => .assign (w.use hγ hr) (hv.change w hγ value _)
  | .get object _, _, .get ho ht => .get (ho.change w hγ object _) (w.token ht)
  | .set object _ value _, _, .set ho ht hv =>
    .set (ho.change w hγ object _) (w.token ht) (hv.change w hγ value _)
  | .conditional c _ yes no, _, .conditional hc ht hy hn =>
    .conditional (hc.change w hγ c _) (w.token ht) (hy.change w hγ yes _) (hn.change w hγ no _)
  | .lambda f, _, .lambda hf => .lambda (hf.change w hγ f _)
  | .comma l _ r, _, .comma hl ht hr =>
    .comma (hl.change w hγ l _) (w.token ht) (hr.change w hγ r _)
  | .binary l _ r, _, .binary hl ht hr =>
    .binary (hl.change w hγ l _) (w.token ht) (hr.change w hγ r _)
  | .logical l _ r, _, .logical hl ht hr =>
    .logical (hl.change w hγ l _) (w.token ht) (hr.change w hγ r _)
  | .unary _ e, _, .unary ht he => .unary (w.token ht) (he.change w hγ e _)
  | .call callee _ es, _, .call hc ht hes =>
    .call (hc.change w hγ callee _) (w.token ht) (hes.change w hγ es _)
  | .this _, _, .this hr => .this (w.use hγ hr)
  | .super _ _, _, .super hr ht => .super (w.use hγ hr) (w.token ht)
  | .grouping _ e, _, .grouping ht he => .grouping (w.token ht) (he.change w hγ e _)
  | .list _ es, _, .list ht hes => .list (w.token ht) (hes.change w hγ es _)
  | .invalid _, _, .invalid ht => .invalid (w.token ht)

lemma AlikeExprs.change (w : K.Changes f K' G) {γ : Γ} {δ : Δ} (hγ : G γ δ) :
    (es es' : List Expr) → AlikeExprs K γ es es' → AlikeExprs K' δ (mapExprs f id es) es'
  | [], _, .nil => .nil
  | e :: es, _, .cons he hes => .cons (he.change w hγ e _) (hes.change w hγ es _)

lemma Stmt.Alike.change (w : K.Changes f K' G) {γ : Γ} {δ : Δ} (hγ : G γ δ) :
    (s s' : Stmt) → s.Alike K γ s' → (s.map f id).Alike K' δ s'
  | .expression _ e, _, .expression he => .expression (he.change w hγ e _)
  | .print _ e, _, .print ht he => .print (w.token ht) (he.change w hγ e _)
  | .var _ none, _, .declare ht => .declare (w.binder hγ ht)
  | .var _ (some e), _, .define ht he => .define (w.binder hγ ht) (he.change w hγ e _)
  | .block _ body, _, .block hδ hbody =>
    have ⟨_, henter, hγ₁⟩ := w.enter hγ hδ
    .block henter (hbody.change w hγ₁ body _)
  | .ifElse _ c yes none, _, .ifOnly ht hc hy =>
    .ifOnly (w.token ht) (hc.change w hγ c _) (hy.change w hγ yes _)
  | .ifElse _ c yes (some no), _, .ifElse ht hc hy hn =>
    .ifElse (w.token ht) (hc.change w hγ c _) (hy.change w hγ yes _) (hn.change w hγ no _)
  | .whileLoop _ c body, _, .whileLoop ht hc hb =>
    .whileLoop (w.loop ht) (hc.change w hγ c _) (hb.change w hγ body _)
  | .breakLoop _, _, .breakLoop ht => .breakLoop (w.token ht)
  | .returnValue _ none, _, .returnNothing ht => .returnNothing (w.token ht)
  | .returnValue _ (some e), _, .returnValue ht he =>
    .returnValue (w.token ht) (he.change w hγ e _)
  | .function (.mk h p l body), _, .function ht hf =>
    .function (w.title hγ ht) (hf.change w hγ (.mk h p l body) _)
  | .classDecl _ none _ ms ss, _, .classDecl ht .none hms hss =>
    .classDecl (w.title hγ ht) .none (hms.change w (w.members false hγ) ms _)
      (hss.change w (w.members false hγ) ss _)
  | .classDecl _ (some _) _ ms ss, _, .classDecl ht (.some hp) hms hss =>
    .classDecl (w.title hγ ht) (.some (w.use hγ hp)) (hms.change w (w.members true hγ) ms _)
      (hss.change w (w.members true hγ) ss _)
  | .invalid _, _, .invalid ht => .invalid (w.token ht)

lemma AlikeStmts.change (w : K.Changes f K' G) {γ : Γ} {δ : Δ} (hγ : G γ δ) :
    (body body' : List Stmt) → AlikeStmts K γ body body' →
      AlikeStmts K' δ (mapStmts f id body) body'
  | [], _, .nil => .nil
  | s :: body, _, .cons hs hbody => .cons (hs.change w hγ s _) (hbody.change w hγ body _)

lemma Function.Alike.change (w : K.Changes f K' G) {γ : Γ} {δ : Δ} (hγ : G γ δ) :
    (g g' : Function) → g.Alike K γ g' → (g.map f id).Alike K' δ g'
  | .mk _ none _ body, _, .mk ht hδ .none hbody =>
    have ⟨_, henter, hγ₁⟩ := w.enter hγ hδ
    .mk (w.token ht) henter .none (hbody.change w hγ₁ body _)
  | .mk _ (some _) _ body, _, .mk ht hδ (.some hp) hbody =>
    have ⟨_, henter, hγ₁⟩ := w.enter hγ hδ
    .mk (w.token ht) henter (.some (w.binders hγ₁ hp)) (hbody.change w hγ₁ body _)

lemma AlikeMembers.change (w : K.Changes f K' G) {γ : Γ} {δ : Δ} (hγ : G γ δ) :
    (ms ms' : List Function) → AlikeMembers K γ ms ms' →
      AlikeMembers K' δ (mapMembers f id ms) ms'
  | [], _, .nil => .nil
  | m :: ms, _, .cons hm hms => .cons (hm.change w hγ m _) (hms.change w hγ ms _)

end

end Trees

lemma Variation.changes_mark (n : Nat) :
    (Variation.shift n).resolved.Changes Token.mark (Variation.settled n).resolved
      fun ν ν' => ν = (Variation.shift n).plain ∧ ν' = (Variation.settled n).plain where
  token h := by
    obtain ⟨hkind, hlexeme, rfl⟩ := h
    exact ⟨hkind, hlexeme, rfl⟩
  loop h := by
    obtain ⟨hkind, hlexeme, rfl⟩ := h
    exact ⟨hkind, hlexeme, rfl⟩
  use {_ _ r r'} hν h := by
    obtain ⟨rfl, rfl⟩ := hν
    obtain ⟨name, depth⟩ := r
    obtain ⟨name', depth'⟩ := r'
    obtain ⟨hdepth, -, -, hname⟩ := h
    cases hdepth
    cases hname
    refine ⟨rfl, rfl, ?_, rfl⟩
    cases depth <;> rfl
  binder hν h := by
    obtain ⟨rfl, rfl⟩ := hν
    obtain ⟨-, -, rfl⟩ := h
    exact ⟨rfl, rfl, rfl⟩
  title hν h := by
    obtain ⟨rfl, rfl⟩ := hν
    obtain ⟨⟨-, -, rfl⟩, -⟩ := h
    exact ⟨⟨rfl, rfl, rfl⟩, rfl⟩
  enter hν h := by
    obtain ⟨rfl, rfl⟩ := hν
    obtain ⟨⟨r, hr⟩, rfl⟩ := h
    obtain rfl : r = id := hr
    exact ⟨_, ⟨(settled n).same, Names.cons_same_plain.symm⟩, Names.cons_same_plain, rfl⟩
  members b hν := by
    obtain ⟨rfl, rfl⟩ := hν
    cases b
    · exact ⟨Names.cons_same_plain, Names.cons_same_plain⟩
    · simp only [resolved, if_true, Names.cons_same_plain, and_self]

lemma Program.alike_mark {p : Program} {body : List Stmt}
    (h : AlikeStmts (Variation.shift n).resolved (Variation.plain _) p.body body) :
    AlikeStmts (Variation.settled n).resolved (Variation.plain _) p.mark.body body :=
  h.change (Variation.changes_mark n) ⟨rfl, rfl⟩ _ _

end Lox
