import Lox.Proofs.Alike.Tree
import Lox.Proofs.Grammar.Phrase

namespace Lox

structure Token.Interchangeable (T : Token → Token → Prop) : Prop where
  kind : ∀ {t t'}, T t t' → t'.kind = t.kind
  literal? : ∀ {t t'}, T t t' → t'.literal? = t.literal?
  -- The condition that a loop without one has.
  always : ∀ {t t'}, T t t' →
    T ⟨.trueWord, "true", t.line, 0⟩ ⟨.trueWord, "true", t'.line, 0⟩

lemma Token.Interchangeable.kind_eq {T : Token → Token → Prop} (hT : Token.Interchangeable T)
    {t t' : Token} {k : Kind} (ht : T t t') (hk : t.kind = k) : t'.kind = k :=
  (hT.kind ht).trans hk

def Likeness.ofTokens (T : Token → Token → Prop) : Likeness Unit where
  token := T
  loop := T
  use _ r r' := T r.name r'.name ∧ r'.depth = none
  binder _ t t' := T t t' ∧ t.kind = .identifier
  title _ t t' := T t t' ∧ t.kind = .identifier
  enter _ _ := True
  members _ _ := ()

structure Likeness.Covers (K : Likeness Unit) (T : Token → Token → Prop) : Prop where
  token : ∀ {t t'}, T t t' → K.token t t'
  loop : ∀ {t t'}, T t t' → K.loop t t'
  use : ∀ {t t'}, T t t' → K.use () ⟨t, none⟩ ⟨t', none⟩
  binder : ∀ {t t'}, T t t' → t.kind = .identifier → K.binder () t t'
  title : ∀ {t t'}, T t t' → t.kind = .identifier → K.title () t t'
  enter : K.enter () ()

lemma Likeness.covers_ofTokens (T : Token → Token → Prop) : (ofTokens T).Covers T where
  token h := h
  loop h := h
  use h := ⟨h, rfl⟩
  binder h hk := ⟨h, hk⟩
  title h hk := ⟨h, hk⟩
  enter := trivial

lemma forall₂_append_left {α β : Type} {R : α → β → Prop} {a b : List α} {c : List β}
    (h : List.Forall₂ R (a ++ b) c) :
    ∃ a' b', List.Forall₂ R a a' ∧ List.Forall₂ R b b' ∧ c = a' ++ b' := by
  induction a generalizing c with
  | nil => exact ⟨[], c, .nil, h, rfl⟩
  | cons x a ih =>
    cases h with
    | cons hx h =>
      obtain ⟨a', b', ha, hb, rfl⟩ := ih h
      exact ⟨_ :: a', b', .cons hx ha, hb, rfl⟩

section

variable {α β : Type} {R : α → β → Prop} {a b : List α} {x y : α} {c : List β}

lemma forall₂_around (h : List.Forall₂ R (a ++ x :: b) c) :
    ∃ a' x' b', List.Forall₂ R a a' ∧ R x x' ∧ List.Forall₂ R b b' ∧ c = a' ++ x' :: b' := by
  obtain ⟨a', _, ha, hb, rfl⟩ := forall₂_append_left h
  cases hb with
  | cons hx hb => exact ⟨a', _, _, ha, hx, hb, rfl⟩

lemma forall₂_between (h : List.Forall₂ R (x :: (a ++ [y])) c) :
    ∃ x' a' y', R x x' ∧ List.Forall₂ R a a' ∧ R y y' ∧ c = x' :: (a' ++ [y']) := by
  cases h with
  | cons hx h =>
    obtain ⟨a', _, _, ha, hy, hnil, rfl⟩ := forall₂_around h
    cases hnil
    exact ⟨_, a', _, hx, ha, hy, rfl⟩

end

/-! Trees that are alike without regard to scopes. -/

section

variable {T : Token → Token → Prop} {K : Likeness Unit}

abbrev Expr.AlikeIn (T : Token → Token → Prop) : Expr → Expr → Prop :=
  Expr.Alike (.ofTokens T) ()

abbrev Stmt.AlikeIn (T : Token → Token → Prop) : Stmt → Stmt → Prop :=
  Stmt.Alike (.ofTokens T) ()

inductive AlikeNamed (K : Likeness Unit) : List (Bool × Function) →
    List (Bool × Function) → Prop
  | nil : AlikeNamed K [] []
  | cons {b f f' ms ms'} : Function.Alike K () f f' → AlikeNamed K ms ms' →
      AlikeNamed K ((b, f) :: ms) ((b, f') :: ms')

lemma Expr.Alike.takesMark :
    (e e' : Expr) → e.Alike K () e' → e'.takesMark = e.takesMark
  | _, _, .lambda _ => rfl
  | .conditional _ _ _ no, _, .conditional _ _ _ hn => hn.takesMark no _
  | _, _, .literal _ => rfl
  | _, _, .ref _ => rfl
  | _, _, .assign _ _ => rfl
  | _, _, .get _ _ => rfl
  | _, _, .set _ _ _ => rfl
  | _, _, .comma _ _ _ => rfl
  | _, _, .binary _ _ _ => rfl
  | _, _, .logical _ _ _ => rfl
  | _, _, .unary _ _ => rfl
  | _, _, .call _ _ _ => rfl
  | _, _, .this _ => rfl
  | _, _, .super _ _ => rfl
  | _, _, .grouping _ _ => rfl
  | _, _, .list _ _ => rfl
  | _, _, .invalid _ => rfl

lemma Expr.Alike.leavesMark {e e' : Expr} (h : e.Alike K () e') :
    e'.leavesMark = e.leavesMark := by
  cases h with
  | assign _ hv => exact congrArg (!·) (hv.takesMark _ _)
  | set _ _ hv => exact congrArg (!·) (hv.takesMark _ _)
  | _ => rfl

lemma Expr.Alike.join {l l' r r' : Expr} {op op' : Token} (level : Level)
    (hl : l.Alike K () l') (hop : K.token op op') (hr : r.Alike K () r') :
    (level.join l op r).Alike K () (level.join l' op' r') := by
  cases level
  case comma => exact .comma hl hop hr
  case or | and => exact .logical hl hop hr
  all_goals exact .binary hl hop hr

lemma AlikeNamed.membersOf {ms ms' : List (Bool × Function)} (h : AlikeNamed K ms ms')
    (isStatic : Bool) :
    AlikeMembers K () (membersOf isStatic ms) (membersOf isStatic ms') := by
  induction h with
  | nil => exact .nil
  | @cons b f f' ms ms' hf _ ih =>
    unfold Lox.membersOf at ih ⊢
    by_cases hb : b = isStatic
    · simpa [hb] using AlikeMembers.cons hf ih
    · simpa [hb] using ih

lemma Stmt.Alike.ofFunction {f f' : Function} (h : Function.Alike K () f f')
    (ht : K.title () f.head f'.head) : (Stmt.function f).Alike K () (.function f') :=
  .function ht h

lemma Stmt.Alike.expandFor (hT : Token.Interchangeable T) (hK : K.Covers T)
    {keyword keyword' : Token} (hk : T keyword keyword') {start start' : Option Stmt}
    (hs : Option.Rel (Stmt.Alike K ()) start start') {c c' step step' : Option Expr}
    (hc : Option.Rel (Expr.Alike K ()) c c') (hstep : Option.Rel (Expr.Alike K ()) step step')
    {body body' : Stmt} (hb : body.Alike K () body') :
    (Readers.expandFor keyword start c step body).Alike K ()
      (Readers.expandFor keyword' start' c' step' body') := by
  have hcondition : (c.getD (Readers.alwaysTrue keyword)).Alike K ()
      (c'.getD (Readers.alwaysTrue keyword')) := by
    cases hc with
    | none => exact .literal (hK.token (hT.always hk))
    | some hc => exact hc
  have hloop : ∀ {body body' : Stmt}, body.Alike K () body' →
      (Stmt.whileLoop keyword (c.getD (Readers.alwaysTrue keyword)) body).Alike K ()
        (.whileLoop keyword' (c'.getD (Readers.alwaysTrue keyword')) body') :=
    fun hb => .whileLoop (hK.loop hk) hcondition hb
  have hend : ∀ {body body' : Stmt} {step step' : Expr}, body.Alike K () body' →
      step.Alike K () step' →
      (Stmt.block keyword.line [body, .expression keyword.line step]).Alike K ()
        (.block keyword'.line [body', .expression keyword'.line step']) :=
    fun hb hs => .block hK.enter (.cons hb (.cons (.expression hs) .nil))
  unfold Readers.expandFor
  cases hs with
  | none =>
    cases hstep with
    | none => exact hloop hb
    | some hstep => exact hloop (hend hb hstep)
  | some hfirst =>
    cases hstep with
    | none => exact .block hK.enter (.cons hfirst (.cons (hloop hb) .nil))
    | some hstep => exact .block hK.enter (.cons hfirst (.cons (hloop (hend hb hstep)) .nil))

end

def Phrase.Alike (K : Likeness Unit) : Phrase → Phrase → Prop
  | .expression level e, φ => ∃ e', φ = .expression level e' ∧ e.Alike K () e'
  | .optional e, φ => ∃ e', φ = .optional e' ∧ Option.Rel (Expr.Alike K ()) e e'
  | .expressions es, φ => ∃ es', φ = .expressions es' ∧ AlikeExprs K () es es'
  | .items es, φ => ∃ es', φ = .items es' ∧ AlikeExprs K () es es'
  | .names ps, φ => ∃ ps', φ = .names ps' ∧ List.Forall₂ (K.binder ()) ps ps'
  | .parameters ps, φ => ∃ ps', φ = .parameters ps' ∧
      List.Forall₂ (K.binder ()) ps.names ps'.names
  | .rest ps _ body, φ => ∃ ps' line' body', φ = .rest ps' line' body' ∧
      Option.Rel (fun p p' : Params =>
        List.Forall₂ (K.binder ()) p.names p'.names) ps ps' ∧
      AlikeStmts K () body body'
  | .members ms, φ => ∃ ms', φ = .members ms' ∧ AlikeNamed K ms ms'
  | .superclass r, φ => ∃ r', φ = .superclass r' ∧
      Option.Rel (K.use ()) r r'
  | .binding s, φ => ∃ s', φ = .binding s' ∧ s.Alike K () s'
  | .expressionStatement s, φ => ∃ s', φ = .expressionStatement s' ∧ s.Alike K () s'
  | .forStart s, φ => ∃ s', φ = .forStart s' ∧ Option.Rel (Stmt.Alike K ()) s s'
  | .statement b o s, φ => ∃ s', φ = .statement b o s' ∧ s.Alike K () s'
  | .declaration b s, φ => ∃ s', φ = .declaration b s' ∧ s.Alike K () s'
  | .declarations b body, φ => ∃ body', φ = .declarations b body' ∧
      AlikeStmts K () body body'

namespace Phrase

/-- All tokens like these spell a phrase like this one. -/
def Recurs (K : Likeness Unit) (T : Token → Token → Prop) (φ : Phrase) (ts : List Token) : Prop :=
  ∀ ⦃ts'⦄, List.Forall₂ T ts ts' → ∃ φ', φ.Alike K φ' ∧ Spells φ' ts'

namespace Recurs

variable {T : Token → Token → Prop} {K : Likeness Unit} {level : Level} {b o : Bool} {line : Nat}
  {keyword name opening closing semicolon comma equals mark colon dot op less word first t : Token}
  {ts us vs ws : List Token}

lemma pass {e : Expr} (hl : level ≠ .primary) (h : Recurs K T (.expression level.next e) ts) :
    Recurs K T (.expression level e) ts := by
  intro ts' hts
  obtain ⟨_, ⟨_, rfl, he⟩, hs⟩ := h hts
  exact ⟨_, ⟨_, rfl, he⟩, .pass hl hs⟩

lemma absent : Recurs K T (.optional none) [] := by
  intro ts' hts
  cases hts
  exact ⟨_, ⟨_, rfl, .none⟩, .absent⟩

lemma present {e : Expr} (h : Recurs K T (.expression .comma e) ts) :
    Recurs K T (.optional (some e)) ts := by
  intro ts' hts
  obtain ⟨_, ⟨_, rfl, he⟩, hs⟩ := h hts
  exact ⟨_, ⟨_, rfl, .some he⟩, .present hs⟩

lemma lastExpression {e : Expr} (h : Recurs K T (.expression .ternary e) ts) :
    Recurs K T (.expressions [e]) ts := by
  intro ts' hts
  obtain ⟨_, ⟨_, rfl, he⟩, hs⟩ := h hts
  exact ⟨_, ⟨_, rfl, .cons he .nil⟩, .lastExpression hs⟩

lemma noItems : Recurs K T (.items []) [] := by
  intro ts' hts
  cases hts
  exact ⟨_, ⟨_, rfl, .nil⟩, .noItems⟩

lemma items {es : List Expr} (h : Recurs K T (.expressions es) ts) : Recurs K T (.items es) ts := by
  intro ts' hts
  obtain ⟨_, ⟨_, rfl, hes⟩, hs⟩ := h hts
  exact ⟨_, ⟨_, rfl, hes⟩, .items hs⟩

lemma rest {params : Params} {body : List Stmt} (h₁ : Recurs K T (.parameters params) ts)
    (h₂ : Recurs K T (.rest none line body) us) :
    Recurs K T (.rest (some params) line body) (ts ++ us) := by
  intro ts' hts
  obtain ⟨us, _, hus, hvs, rfl⟩ := forall₂_append_left hts
  obtain ⟨_, ⟨_, rfl, hps⟩, hs⟩ := h₁ hus
  obtain ⟨_, ⟨_, _, _, rfl, hp, hb⟩, hss⟩ := h₂ hvs
  cases hp
  exact ⟨_, ⟨_, _, _, rfl, .some hps, hb⟩, .rest hs hss⟩

lemma noMembers : Recurs K T (.members []) [] := by
  intro ts' hts
  cases hts
  exact ⟨_, ⟨_, rfl, .nil⟩, .noMembers⟩

lemma noSuperclass : Recurs K T (.superclass none) [] := by
  intro ts' hts
  cases hts
  exact ⟨_, ⟨_, rfl, .none⟩, .noSuperclass⟩

lemma statement {s : Stmt} (h : Recurs K T (.statement b o s) ts) :
    Recurs K T (.declaration b s) ts := by
  intro ts' hts
  obtain ⟨_, ⟨_, rfl, hb⟩, hs⟩ := h hts
  exact ⟨_, ⟨_, rfl, hb⟩, .statement hs⟩

lemma expression {s : Stmt} (h : Recurs K T (.expressionStatement s) ts) :
    Recurs K T (.statement b false s) ts := by
  intro ts' hts
  obtain ⟨_, ⟨_, rfl, hb⟩, hs⟩ := h hts
  exact ⟨_, ⟨_, rfl, hb⟩, .expression hs⟩

lemma forExpression {s : Stmt} (h : Recurs K T (.expressionStatement s) ts) :
    Recurs K T (.forStart (some s)) ts := by
  intro ts' hts
  obtain ⟨_, ⟨_, rfl, hb⟩, hs⟩ := h hts
  exact ⟨_, ⟨_, rfl, .some hb⟩, .forExpression hs⟩

lemma noDeclarations : Recurs K T (.declarations b []) [] := by
  intro ts' hts
  cases hts
  exact ⟨_, ⟨_, rfl, .nil⟩, .noDeclarations⟩

lemma declarations {s : Stmt} {body : List Stmt} (h₁ : Recurs K T (.declaration b s) ts)
    (h₂ : Recurs K T (.declarations b body) us) :
    Recurs K T (.declarations b (s :: body)) (ts ++ us) := by
  intro ts' hts
  obtain ⟨us, _, hus, hvs, rfl⟩ := forall₂_append_left hts
  obtain ⟨_, ⟨_, rfl, hs⟩, hss⟩ := h₁ hus
  obtain ⟨_, ⟨_, rfl, hb⟩, hbs⟩ := h₂ hvs
  exact ⟨_, ⟨_, rfl, .cons hs hb⟩, .declarations hss hbs⟩

/-! Phrases with tokens that their trees do not keep. -/

section

variable (hT : Token.Interchangeable T)

include hT

lemma assign {target : Reference} {value : Expr} (hk : equals.kind = .equal)
    (h₁ : Recurs K T (.expression .or (.ref target)) ts)
    (h₂ : Recurs K T (.expression .ternary value) us) :
    Recurs K T (.expression .assignment (.assign target value equals.line))
      (ts ++ equals :: us) := by
  intro ts' hts
  obtain ⟨us, _, _, hus, ht, hvs, rfl⟩ := forall₂_around hts
  obtain ⟨_, ⟨_, rfl, he⟩, hs⟩ := h₁ hus
  obtain ⟨_, ⟨_, rfl, hv⟩, hvs⟩ := h₂ hvs
  cases he with
  | ref hr => exact ⟨_, ⟨_, rfl, .assign hr hv⟩, .assign (hT.kind_eq ht hk) hs hvs⟩

lemma set {object value : Expr} (hk : equals.kind = .equal)
    (h₁ : Recurs K T (.expression .or (.get object name)) ts)
    (h₂ : Recurs K T (.expression .ternary value) us) :
    Recurs K T (.expression .assignment (.set object name value equals.line))
      (ts ++ equals :: us) := by
  intro ts' hts
  obtain ⟨us, _, _, hus, ht, hvs, rfl⟩ := forall₂_around hts
  obtain ⟨_, ⟨_, rfl, he⟩, hs⟩ := h₁ hus
  obtain ⟨_, ⟨_, rfl, hv⟩, hvs⟩ := h₂ hvs
  cases he with
  | get ho hn => exact ⟨_, ⟨_, rfl, .set ho hn hv⟩, .set (hT.kind_eq ht hk) hs hvs⟩

lemma moreExpressions {e : Expr} {es : List Expr} (hc : comma.kind = .comma)
    (h₁ : Recurs K T (.expression .ternary e) ts) (h₂ : Recurs K T (.expressions es) us) :
    Recurs K T (.expressions (e :: es)) (ts ++ comma :: us) := by
  intro ts' hts
  obtain ⟨us, _, _, hus, hct, hvs, rfl⟩ := forall₂_around hts
  obtain ⟨_, ⟨_, rfl, he⟩, hs⟩ := h₁ hus
  obtain ⟨_, ⟨_, rfl, hes⟩, hss⟩ := h₂ hvs
  exact ⟨_, ⟨_, rfl, .cons he hes⟩, .moreExpressions (hT.kind_eq hct hc) hs hss⟩

lemma noParameters (ho : opening.kind = .leftParen) (hc : closing.kind = .rightParen) :
    Recurs K T (.parameters ⟨opening.line, []⟩) [opening, closing] := by
  intro ts' hts
  obtain _ | ⟨hot, _ | ⟨hct, ⟨⟩⟩⟩ := hts
  exact ⟨_, ⟨_, rfl, .nil⟩, .noParameters (hT.kind_eq hot ho) (hT.kind_eq hct hc)⟩

lemma parameters {ps : List Token} (ho : opening.kind = .leftParen)
    (hc : closing.kind = .rightParen) (hl : ps.length ≤ maxArguments)
    (h : Recurs K T (.names ps) ts) :
    Recurs K T (.parameters ⟨opening.line, ps⟩) (opening :: (ts ++ [closing])) := by
  intro ts' hts
  obtain ⟨_, us, _, hot, hus, hct, rfl⟩ := forall₂_between hts
  obtain ⟨_, ⟨_, rfl, hps⟩, hs⟩ := h hus
  exact ⟨.parameters ⟨_, _⟩, ⟨_, rfl, hps⟩,
    .parameters (hT.kind_eq hot ho) (hT.kind_eq hct hc) (hps.length_eq ▸ hl) hs⟩

lemma getter {body : List Stmt} (ho : opening.kind = .leftBrace) (hc : closing.kind = .rightBrace)
    (h : Recurs K T (.declarations false body) ts) :
    Recurs K T (.rest none opening.line body) (opening :: (ts ++ [closing])) := by
  intro ts' hts
  obtain ⟨_, us, _, hot, hus, hct, rfl⟩ := forall₂_between hts
  obtain ⟨_, ⟨_, rfl, hb⟩, hs⟩ := h hus
  exact ⟨_, ⟨_, _, _, rfl, .none, hb⟩, .getter (hT.kind_eq hot ho) (hT.kind_eq hct hc) hs⟩

lemma variableDecl {s : Stmt} (hw : keyword.kind = .varWord) (h : Recurs K T (.binding s) ts) :
    Recurs K T (.declaration b s) (keyword :: ts) := by
  intro ts' hts
  obtain _ | ⟨hwt, hts⟩ := hts
  obtain ⟨_, ⟨_, rfl, hb⟩, hs⟩ := h hts
  exact ⟨_, ⟨_, rfl, hb⟩, .variableDecl (hT.kind_eq hwt hw) hs⟩

lemma expressionStatement {e : Expr} (hs : semicolon.kind = .semicolon)
    (h : Recurs K T (.expression .comma e) (first :: ts)) :
    Recurs K T (.expressionStatement (.expression first.line e))
      (first :: (ts ++ [semicolon])) := by
  intro ts' hts
  obtain ⟨_, us, _, hft, hus, hst, rfl⟩ := forall₂_between hts
  obtain ⟨_, ⟨_, rfl, he⟩, hes⟩ := h (.cons hft hus)
  exact ⟨_, ⟨_, rfl, .expression he⟩, .expressionStatement (hT.kind_eq hst hs) hes⟩

lemma forNothing (hs : semicolon.kind = .semicolon) : Recurs K T (.forStart none) [semicolon] := by
  intro ts' hts
  obtain _ | ⟨hst, ⟨⟩⟩ := hts
  exact ⟨_, ⟨_, rfl, .none⟩, .forNothing (hT.kind_eq hst hs)⟩

lemma forVariable {s : Stmt} (hw : keyword.kind = .varWord) (h : Recurs K T (.binding s) ts) :
    Recurs K T (.forStart (some s)) (keyword :: ts) := by
  intro ts' hts
  obtain _ | ⟨hwt, hts⟩ := hts
  obtain ⟨_, ⟨_, rfl, hb⟩, hs⟩ := h hts
  exact ⟨_, ⟨_, rfl, .some hb⟩, .forVariable (hT.kind_eq hwt hw) hs⟩

/-! Phrases whose trees keep tokens. -/

variable (hK : K.Covers T)

include hK

lemma join {l r : Expr} (hop : op.kind ∈ level.ops) (h₁ : Recurs K T (.expression level l) ts)
    (h₂ : Recurs K T (.expression level.next r) us) :
    Recurs K T (.expression level (level.join l op r)) (ts ++ op :: us) := by
  intro ts' hts
  obtain ⟨us, _, _, hus, hopt, hvs, rfl⟩ := forall₂_around hts
  obtain ⟨_, ⟨_, rfl, hl⟩, hls⟩ := h₁ hus
  obtain ⟨_, ⟨_, rfl, hr⟩, hrs⟩ := h₂ hvs
  refine ⟨_, ⟨_, rfl, .join _ hl (hK.token hopt) hr⟩, .join ?_ hls hrs⟩
  rwa [hT.kind hopt]

lemma lambda {params : Params} {body : List Stmt} (hk : keyword.kind = .funWord)
    (h : Recurs K T (.rest (some params) line body) ts) :
    Recurs K T (.expression .ternary (.lambda (.mk keyword (some params) line body)))
      (keyword :: ts) := by
  intro ts' hts
  cases hts with
  | cons ht hts =>
    obtain ⟨_, ⟨_, _, _, rfl, hp, hb⟩, hs⟩ := h hts
    cases hp with
    | some hp =>
      exact ⟨_, ⟨_, rfl, .lambda (.mk (hK.token ht) hK.enter (.some hp) hb)⟩,
        .lambda (hT.kind_eq ht hk) hs⟩

lemma conditional {c yes no : Expr} (hm : mark.kind = .question) (hc : colon.kind = .colon)
    (hl : c.leavesMark = true) (h₁ : Recurs K T (.expression .assignment c) ts)
    (h₂ : Recurs K T (.expression .comma yes) us) (h₃ : Recurs K T (.expression .ternary no) vs) :
    Recurs K T (.expression .ternary (.conditional c mark yes no))
      (ts ++ mark :: (us ++ colon :: vs)) := by
  intro ts' hts
  obtain ⟨us, _, _, hus, hmt, hvs, rfl⟩ := forall₂_around hts
  obtain ⟨vs, _, _, hvs', hct, hws, rfl⟩ := forall₂_around hvs
  obtain ⟨_, ⟨_, rfl, he⟩, hs⟩ := h₁ hus
  obtain ⟨_, ⟨_, rfl, hy⟩, hys⟩ := h₂ hvs'
  obtain ⟨_, ⟨_, rfl, hn⟩, hns⟩ := h₃ hws
  exact ⟨_, ⟨_, rfl, .conditional he (hK.token hmt) hy hn⟩,
    .conditional (hT.kind_eq hmt hm) (hT.kind_eq hct hc) (he.leavesMark.trans hl) hs hys hns⟩

lemma sign {e : Expr} (hop : op.kind ∈ [.bang, .minus]) (h : Recurs K T (.expression .sign e) ts) :
    Recurs K T (.expression .sign (.unary op e)) (op :: ts) := by
  intro ts' hts
  cases hts with
  | cons ht hts =>
    obtain ⟨_, ⟨_, rfl, he⟩, hs⟩ := h hts
    refine ⟨_, ⟨_, rfl, .unary (hK.token ht) he⟩, .sign ?_ hs⟩
    rwa [hT.kind ht]

lemma call {callee : Expr} {es : List Expr} (ho : opening.kind = .leftParen)
    (hc : closing.kind = .rightParen) (hl : es.length ≤ maxArguments)
    (h₁ : Recurs K T (.expression .call callee) ts) (h₂ : Recurs K T (.items es) us) :
    Recurs K T (.expression .call (.call callee closing es))
      (ts ++ opening :: (us ++ [closing])) := by
  intro ts' hts
  obtain ⟨us, _, _, hus, hot, hvs, rfl⟩ := forall₂_around hts
  obtain ⟨vs, _, _, hvs', hct, hnil, rfl⟩ := forall₂_around hvs
  cases hnil
  obtain ⟨_, ⟨_, rfl, he⟩, hs⟩ := h₁ hus
  obtain ⟨_, ⟨_, rfl, hes⟩, hss⟩ := h₂ hvs'
  exact ⟨_, ⟨_, rfl, .call he (hK.token hct) hes⟩,
    .call (hT.kind_eq hot ho) (hT.kind_eq hct hc) (hes.length ▸ hl) hs hss⟩

lemma get {object : Expr} (hd : dot.kind = .dot) (hn : name.kind = .identifier)
    (h : Recurs K T (.expression .call object) ts) :
    Recurs K T (.expression .call (.get object name)) (ts ++ [dot, name]) := by
  intro ts' hts
  obtain ⟨us, _, hus, hvs, rfl⟩ := forall₂_append_left hts
  obtain _ | ⟨hdt, _ | ⟨hnt, ⟨⟩⟩⟩ := hvs
  obtain ⟨_, ⟨_, rfl, he⟩, hs⟩ := h hus
  exact ⟨_, ⟨_, rfl, .get he (hK.token hnt)⟩, .get (hT.kind_eq hdt hd) (hT.kind_eq hnt hn) hs⟩

lemma literal {value : Literal} (hv : t.literal? = some value) :
    Recurs K T (.expression .primary (.literal t value)) [t] := by
  intro ts' hts
  obtain _ | ⟨ht, ⟨⟩⟩ := hts
  exact ⟨_, ⟨_, rfl, .literal (hK.token ht)⟩, .literal ((hT.literal? ht).trans hv)⟩

lemma this (hk : t.kind = .thisWord) : Recurs K T (.expression .primary (.this ⟨t, none⟩)) [t] := by
  intro ts' hts
  obtain _ | ⟨ht, ⟨⟩⟩ := hts
  exact ⟨.expression .primary (.this ⟨_, none⟩), ⟨_, rfl, .this (hK.use ht)⟩,
    .this (hT.kind_eq ht hk)⟩

lemma ref (hk : t.kind = .identifier) : Recurs K T (.expression .primary (.ref ⟨t, none⟩)) [t] := by
  intro ts' hts
  obtain _ | ⟨ht, ⟨⟩⟩ := hts
  exact ⟨.expression .primary (.ref ⟨_, none⟩), ⟨_, rfl, .ref (hK.use ht)⟩, .ref (hT.kind_eq ht hk)⟩

lemma super {method : Token} (hk : t.kind = .superWord) (hd : dot.kind = .dot)
    (hm : method.kind = .identifier) :
    Recurs K T (.expression .primary (.super ⟨t, none⟩ method)) [t, dot, method] := by
  intro ts' hts
  obtain _ | ⟨ht, _ | ⟨hdt, _ | ⟨hmt, ⟨⟩⟩⟩⟩ := hts
  exact ⟨.expression .primary (.super ⟨_, none⟩ _), ⟨_, rfl, .super (hK.use ht) (hK.token hmt)⟩,
    .super (hT.kind_eq ht hk) (hT.kind_eq hdt hd) (hT.kind_eq hmt hm)⟩

lemma grouping {e : Expr} (ho : opening.kind = .leftParen) (hc : closing.kind = .rightParen)
    (h : Recurs K T (.expression .comma e) ts) :
    Recurs K T (.expression .primary (.grouping opening e)) (opening :: (ts ++ [closing])) := by
  intro ts' hts
  obtain ⟨_, us, _, hot, hus, hct, rfl⟩ := forall₂_between hts
  obtain ⟨_, ⟨_, rfl, he⟩, hs⟩ := h hus
  exact ⟨_, ⟨_, rfl, .grouping (hK.token hot) he⟩,
    .grouping (hT.kind_eq hot ho) (hT.kind_eq hct hc) hs⟩

lemma list {es : List Expr} (ho : opening.kind = .leftBracket) (hc : closing.kind = .rightBracket)
    (h : Recurs K T (.items es) ts) :
    Recurs K T (.expression .primary (.list opening es)) (opening :: (ts ++ [closing])) := by
  intro ts' hts
  obtain ⟨_, us, _, hot, hus, hct, rfl⟩ := forall₂_between hts
  obtain ⟨_, ⟨_, rfl, hes⟩, hs⟩ := h hus
  exact ⟨_, ⟨_, rfl, .list (hK.token hot) hes⟩, .list (hT.kind_eq hot ho) (hT.kind_eq hct hc) hs⟩

lemma lastName (hk : name.kind = .identifier) : Recurs K T (.names [name]) [name] := by
  intro ts' hts
  obtain _ | ⟨ht, ⟨⟩⟩ := hts
  exact ⟨_, ⟨_, rfl, .cons (hK.binder ht hk) .nil⟩, .lastName (hT.kind_eq ht hk)⟩

lemma moreNames {ps : List Token} (hk : name.kind = .identifier) (hc : comma.kind = .comma)
    (h : Recurs K T (.names ps) ts) : Recurs K T (.names (name :: ps)) (name :: comma :: ts) := by
  intro ts' hts
  obtain _ | ⟨ht, _ | ⟨hct, hts⟩⟩ := hts
  obtain ⟨_, ⟨_, rfl, hps⟩, hs⟩ := h hts
  exact ⟨_, ⟨_, rfl, .cons (hK.binder ht hk) hps⟩,
    .moreNames (hT.kind_eq ht hk) (hT.kind_eq hct hc) hs⟩

lemma method {params : Option Params} {body : List Stmt} {ms : List (Bool × Function)}
    (hk : name.kind = .identifier) (h₁ : Recurs K T (.rest params line body) ts)
    (h₂ : Recurs K T (.members ms) us) :
    Recurs K T (.members ((false, .mk name params line body) :: ms)) (name :: (ts ++ us)) := by
  intro ts' hts
  obtain _ | ⟨ht, hts⟩ := hts
  obtain ⟨us, _, hus, hvs, rfl⟩ := forall₂_append_left hts
  obtain ⟨_, ⟨_, _, _, rfl, hp, hb⟩, hs⟩ := h₁ hus
  obtain ⟨_, ⟨_, rfl, hms⟩, hss⟩ := h₂ hvs
  exact ⟨_, ⟨_, rfl, .cons (.mk (hK.token ht) hK.enter hp hb) hms⟩,
    .method (hT.kind_eq ht hk) hs hss⟩

lemma staticMember {params : Option Params} {body : List Stmt} {ms : List (Bool × Function)}
    (hw : keyword.kind = .classWord) (hk : name.kind = .identifier)
    (h₁ : Recurs K T (.rest params line body) ts) (h₂ : Recurs K T (.members ms) us) :
    Recurs K T (.members ((true, .mk name params line body) :: ms))
      (keyword :: name :: (ts ++ us)) := by
  intro ts' hts
  obtain _ | ⟨hwt, _ | ⟨ht, hts⟩⟩ := hts
  obtain ⟨us, _, hus, hvs, rfl⟩ := forall₂_append_left hts
  obtain ⟨_, ⟨_, _, _, rfl, hp, hb⟩, hs⟩ := h₁ hus
  obtain ⟨_, ⟨_, rfl, hms⟩, hss⟩ := h₂ hvs
  exact ⟨_, ⟨_, rfl, .cons (.mk (hK.token ht) hK.enter hp hb) hms⟩,
    .staticMember (hT.kind_eq hwt hw) (hT.kind_eq ht hk) hs hss⟩

lemma superclass (hl : less.kind = .less) (hk : name.kind = .identifier) :
    Recurs K T (.superclass (some ⟨name, none⟩)) [less, name] := by
  intro ts' hts
  obtain _ | ⟨hlt, _ | ⟨ht, ⟨⟩⟩⟩ := hts
  exact ⟨.superclass (some ⟨_, none⟩), ⟨_, rfl, .some (hK.use ht)⟩,
    .superclass (hT.kind_eq hlt hl) (hT.kind_eq ht hk)⟩

lemma classDecl {parent : Option Reference} {ms : List (Bool × Function)}
    (hw : keyword.kind = .classWord) (hk : name.kind = .identifier) (ho : opening.kind = .leftBrace)
    (hc : closing.kind = .rightBrace) (h₁ : Recurs K T (.superclass parent) ts)
    (h₂ : Recurs K T (.members ms) us) :
    Recurs K T (.declaration b (.classDecl name parent opening.line
        (membersOf false ms) (membersOf true ms)))
      (keyword :: name :: (ts ++ opening :: (us ++ [closing]))) := by
  intro ts' hts
  obtain _ | ⟨hwt, _ | ⟨ht, hts⟩⟩ := hts
  obtain ⟨us, _, _, hus, hot, hvs, rfl⟩ := forall₂_around hts
  obtain ⟨vs, _, hvs', hws, rfl⟩ := forall₂_append_left hvs
  obtain _ | ⟨hct, ⟨⟩⟩ := hws
  obtain ⟨_, ⟨_, rfl, hp⟩, hs⟩ := h₁ hus
  obtain ⟨_, ⟨_, rfl, hms⟩, hss⟩ := h₂ hvs'
  exact ⟨_, ⟨_, rfl, .classDecl (hK.title ht hk) hp (hms.membersOf false) (hms.membersOf true)⟩,
    .classDecl (hT.kind_eq hwt hw) (hT.kind_eq ht hk) (hT.kind_eq hot ho)
      (hT.kind_eq hct hc) hs hss⟩

lemma function {params : Params} {body : List Stmt} (hw : keyword.kind = .funWord)
    (hk : name.kind = .identifier) (h : Recurs K T (.rest (some params) line body) ts) :
    Recurs K T (.declaration b (.function (.mk name (some params) line body)))
      (keyword :: name :: ts) := by
  intro ts' hts
  obtain _ | ⟨hwt, _ | ⟨ht, hts⟩⟩ := hts
  obtain ⟨_, ⟨_, _, _, rfl, hp, hb⟩, hs⟩ := h hts
  cases hp with
  | some hp =>
    exact ⟨_, ⟨_, rfl, .ofFunction (.mk (hK.token ht) hK.enter (.some hp) hb) (hK.title ht hk)⟩,
      .function (hT.kind_eq hwt hw) (hT.kind_eq ht hk) hs⟩

lemma uninitialized (hk : name.kind = .identifier) (hs : semicolon.kind = .semicolon) :
    Recurs K T (.binding (.var name none)) [name, semicolon] := by
  intro ts' hts
  obtain _ | ⟨ht, _ | ⟨hst, ⟨⟩⟩⟩ := hts
  exact ⟨_, ⟨_, rfl, .declare (hK.binder ht hk)⟩,
    .uninitialized (hT.kind_eq ht hk) (hT.kind_eq hst hs)⟩

lemma initialized {init : Expr} (hk : name.kind = .identifier) (hq : equals.kind = .equal)
    (hs : semicolon.kind = .semicolon) (h : Recurs K T (.expression .comma init) ts) :
    Recurs K T (.binding (.var name (some init))) (name :: equals :: (ts ++ [semicolon])) := by
  intro ts' hts
  obtain _ | ⟨ht, _ | ⟨hqt, hts⟩⟩ := hts
  obtain ⟨us, _, hus, hvs, rfl⟩ := forall₂_append_left hts
  obtain _ | ⟨hst, ⟨⟩⟩ := hvs
  obtain ⟨_, ⟨_, rfl, he⟩, hes⟩ := h hus
  exact ⟨_, ⟨_, rfl, .define (hK.binder ht hk) he⟩,
    .initialized (hT.kind_eq ht hk) (hT.kind_eq hqt hq) (hT.kind_eq hst hs) hes⟩

lemma breakLoop (hk : keyword.kind = .breakWord) (hs : semicolon.kind = .semicolon) :
    Recurs K T (.statement true false (.breakLoop keyword)) [keyword, semicolon] := by
  intro ts' hts
  obtain _ | ⟨ht, _ | ⟨hst, ⟨⟩⟩⟩ := hts
  exact ⟨_, ⟨_, rfl, .breakLoop (hK.token ht)⟩, .breakLoop (hT.kind_eq ht hk) (hT.kind_eq hst hs)⟩

lemma print {e : Expr} (hk : keyword.kind = .printWord) (hs : semicolon.kind = .semicolon)
    (h : Recurs K T (.expression .comma e) ts) :
    Recurs K T (.statement b false (.print keyword e)) (keyword :: (ts ++ [semicolon])) := by
  intro ts' hts
  obtain ⟨_, us, _, ht, hus, hst, rfl⟩ := forall₂_between hts
  obtain ⟨_, ⟨_, rfl, he⟩, hes⟩ := h hus
  exact ⟨_, ⟨_, rfl, .print (hK.token ht) he⟩, .print (hT.kind_eq ht hk) (hT.kind_eq hst hs) hes⟩

lemma returnValue {e : Option Expr} (hk : keyword.kind = .returnWord)
    (hs : semicolon.kind = .semicolon) (h : Recurs K T (.optional e) ts) :
    Recurs K T (.statement b false (.returnValue keyword e)) (keyword :: (ts ++ [semicolon])) := by
  intro ts' hts
  obtain ⟨_, us, _, ht, hus, hst, rfl⟩ := forall₂_between hts
  obtain ⟨_, ⟨_, rfl, he⟩, hes⟩ := h hus
  refine ⟨_, ⟨_, rfl, ?_⟩, .returnValue (hT.kind_eq ht hk) (hT.kind_eq hst hs) hes⟩
  cases he with
  | none => exact .returnNothing (hK.token ht)
  | some he => exact .returnValue (hK.token ht) he

lemma block {body : List Stmt} (ho : opening.kind = .leftBrace) (hc : closing.kind = .rightBrace)
    (h : Recurs K T (.declarations b body) ts) :
    Recurs K T (.statement b false (.block opening.line body)) (opening :: (ts ++ [closing])) := by
  intro ts' hts
  obtain ⟨_, us, _, hot, hus, hct, rfl⟩ := forall₂_between hts
  obtain ⟨_, ⟨_, rfl, hb⟩, hs⟩ := h hus
  exact ⟨_, ⟨_, rfl, .block hK.enter hb⟩, .block (hT.kind_eq hot ho) (hT.kind_eq hct hc) hs⟩

lemma ifOnly {c : Expr} {yes : Stmt} (hk : keyword.kind = .ifWord) (ho : opening.kind = .leftParen)
    (hc : closing.kind = .rightParen) (h₁ : Recurs K T (.expression .comma c) ts)
    (h₂ : Recurs K T (.statement b o yes) us) :
    Recurs K T (.statement b true (.ifElse keyword c yes none))
      (keyword :: opening :: (ts ++ closing :: us)) := by
  intro ts' hts
  obtain _ | ⟨ht, _ | ⟨hot, hts⟩⟩ := hts
  obtain ⟨us, _, _, hus, hct, hvs, rfl⟩ := forall₂_around hts
  obtain ⟨_, ⟨_, rfl, he⟩, hs⟩ := h₁ hus
  obtain ⟨_, ⟨_, rfl, hy⟩, hys⟩ := h₂ hvs
  exact ⟨_, ⟨_, rfl, .ifOnly (hK.token ht) he hy⟩,
    .ifOnly (hT.kind_eq ht hk) (hT.kind_eq hot ho) (hT.kind_eq hct hc) hs hys⟩

lemma ifElse {c : Expr} {yes no : Stmt} (hk : keyword.kind = .ifWord)
    (ho : opening.kind = .leftParen) (hc : closing.kind = .rightParen) (hw : word.kind = .elseWord)
    (h₁ : Recurs K T (.expression .comma c) ts) (h₂ : Recurs K T (.statement b false yes) us)
    (h₃ : Recurs K T (.statement b o no) vs) :
    Recurs K T (.statement b o (.ifElse keyword c yes (some no)))
      (keyword :: opening :: (ts ++ closing :: (us ++ word :: vs))) := by
  intro ts' hts
  obtain _ | ⟨ht, _ | ⟨hot, hts⟩⟩ := hts
  obtain ⟨us, _, _, hus, hct, hvs, rfl⟩ := forall₂_around hts
  obtain ⟨vs, _, _, hvs', hwt, hws, rfl⟩ := forall₂_around hvs
  obtain ⟨_, ⟨_, rfl, he⟩, hs⟩ := h₁ hus
  obtain ⟨_, ⟨_, rfl, hy⟩, hys⟩ := h₂ hvs'
  obtain ⟨_, ⟨_, rfl, hn⟩, hns⟩ := h₃ hws
  exact ⟨_, ⟨_, rfl, .ifElse (hK.token ht) he hy hn⟩,
    .ifElse (hT.kind_eq ht hk) (hT.kind_eq hot ho) (hT.kind_eq hct hc)
      (hT.kind_eq hwt hw) hs hys hns⟩

lemma whileLoop {c : Expr} {body : Stmt} (hk : keyword.kind = .whileWord)
    (ho : opening.kind = .leftParen) (hc : closing.kind = .rightParen)
    (h₁ : Recurs K T (.expression .comma c) ts) (h₂ : Recurs K T (.statement true o body) us) :
    Recurs K T (.statement b o (.whileLoop keyword c body))
      (keyword :: opening :: (ts ++ closing :: us)) := by
  intro ts' hts
  obtain _ | ⟨ht, _ | ⟨hot, hts⟩⟩ := hts
  obtain ⟨us, _, _, hus, hct, hvs, rfl⟩ := forall₂_around hts
  obtain ⟨_, ⟨_, rfl, he⟩, hs⟩ := h₁ hus
  obtain ⟨_, ⟨_, rfl, hb⟩, hbs⟩ := h₂ hvs
  exact ⟨_, ⟨_, rfl, .whileLoop (hK.loop ht) he hb⟩,
    .whileLoop (hT.kind_eq ht hk) (hT.kind_eq hot ho) (hT.kind_eq hct hc) hs hbs⟩

lemma forLoop {start : Option Stmt} {c step : Option Expr} {body : Stmt}
    (hk : keyword.kind = .forWord) (ho : opening.kind = .leftParen)
    (hs : semicolon.kind = .semicolon) (hc : closing.kind = .rightParen)
    (h₁ : Recurs K T (.forStart start) ts) (h₂ : Recurs K T (.optional c) us)
    (h₃ : Recurs K T (.optional step) vs) (h₄ : Recurs K T (.statement true o body) ws) :
    Recurs K T (.statement b o (Readers.expandFor keyword start c step body))
      (keyword :: opening :: (ts ++ (us ++ semicolon :: (vs ++ closing :: ws)))) := by
  intro ts' hts
  obtain _ | ⟨ht, _ | ⟨hot, hts⟩⟩ := hts
  obtain ⟨us, _, hus, hvs, rfl⟩ := forall₂_append_left hts
  obtain ⟨vs, _, _, hvs', hst, hws, rfl⟩ := forall₂_around hvs
  obtain ⟨ws, _, _, hws', hct, hxs, rfl⟩ := forall₂_around hws
  obtain ⟨_, ⟨_, rfl, hf⟩, hfs⟩ := h₁ hus
  obtain ⟨_, ⟨_, rfl, he⟩, hes⟩ := h₂ hvs'
  obtain ⟨_, ⟨_, rfl, hstep⟩, hsteps⟩ := h₃ hws'
  obtain ⟨_, ⟨_, rfl, hb⟩, hbs⟩ := h₄ hxs
  exact ⟨_, ⟨_, rfl, .expandFor hT hK ht hf he hstep hb⟩,
    .forLoop (hT.kind_eq ht hk) (hT.kind_eq hot ho) (hT.kind_eq hst hs) (hT.kind_eq hct hc)
      hfs hes hsteps hbs⟩

end

end Recurs

end Phrase

theorem Spells.alike {T : Token → Token → Prop} {K : Likeness Unit} (hT : Token.Interchangeable T)
    (hK : K.Covers T) {φ : Phrase} {ts : List Token} (h : Spells φ ts) : φ.Recurs K T ts := by
  induction h with
  | pass hl _ ih => exact .pass hl ih
  | join hop _ _ ihl ihr => exact .join hT hK hop ihl ihr
  | lambda hk _ ih => exact .lambda hT hK hk ih
  | conditional hm hc hl _ _ _ ihc ihy ihn => exact .conditional hT hK hm hc hl ihc ihy ihn
  | assign hk _ _ iht ihv => exact .assign hT hk iht ihv
  | set hk _ _ iht ihv => exact .set hT hk iht ihv
  | sign hop _ ih => exact .sign hT hK hop ih
  | call ho hc hl _ _ ihc ihes => exact .call hT hK ho hc hl ihc ihes
  | get hd hn _ ih => exact .get hT hK hd hn ih
  | literal hv => exact .literal hT hK hv
  | this hk => exact .this hT hK hk
  | ref hk => exact .ref hT hK hk
  | super hk hd hm => exact .super hT hK hk hd hm
  | grouping ho hc _ ih => exact .grouping hT hK ho hc ih
  | list ho hc _ ih => exact .list hT hK ho hc ih
  | absent => exact .absent
  | present _ ih => exact .present ih
  | lastExpression _ ih => exact .lastExpression ih
  | moreExpressions hc _ _ ihe ihes => exact .moreExpressions hT hc ihe ihes
  | noItems => exact .noItems
  | items _ ih => exact .items ih
  | lastName hk => exact .lastName hT hK hk
  | moreNames hk hc _ ih => exact .moreNames hT hK hk hc ih
  | noParameters ho hc => exact .noParameters hT ho hc
  | parameters ho hc hl _ ih => exact .parameters hT ho hc hl ih
  | getter ho hc _ ih => exact .getter hT ho hc ih
  | rest _ _ ihp ihb => exact .rest ihp ihb
  | noMembers => exact .noMembers
  | method hk _ _ ihf ihms => exact .method hT hK hk ihf ihms
  | staticMember hw hk _ _ ihf ihms => exact .staticMember hT hK hw hk ihf ihms
  | noSuperclass => exact .noSuperclass
  | superclass hl hk => exact .superclass hT hK hl hk
  | classDecl hw hk ho hc _ _ ihp ihms => exact .classDecl hT hK hw hk ho hc ihp ihms
  | function hw hk _ ih => exact .function hT hK hw hk ih
  | uninitialized hk hs => exact .uninitialized hT hK hk hs
  | initialized hk hq hs _ ih => exact .initialized hT hK hk hq hs ih
  | variableDecl hw _ ih => exact .variableDecl hT hw ih
  | statement _ ih => exact .statement ih
  | expressionStatement hs _ ih => exact .expressionStatement hT hs ih
  | expression _ ih => exact .expression ih
  | breakLoop hk hs => exact .breakLoop hT hK hk hs
  | print hk hs _ ih => exact .print hT hK hk hs ih
  | returnValue hk hs _ ih => exact .returnValue hT hK hk hs ih
  | block ho hc _ ih => exact .block hT hK ho hc ih
  | ifOnly hk ho hc _ _ ihc ihy => exact .ifOnly hT hK hk ho hc ihc ihy
  | ifElse hk ho hc hw _ _ _ ihc ihy ihn => exact .ifElse hT hK hk ho hc hw ihc ihy ihn
  | whileLoop hk ho hc _ _ ihc ihb => exact .whileLoop hT hK hk ho hc ihc ihb
  | forNothing hs => exact .forNothing hT hs
  | forVariable hw _ ih => exact .forVariable hT hw ih
  | forExpression _ ih => exact .forExpression ih
  | forLoop hk ho hs hc _ _ _ _ ihf ihc ihstep ihb =>
    exact .forLoop hT hK hk ho hs hc ihf ihc ihstep ihb
  | noDeclarations => exact .noDeclarations
  | declarations _ _ ihs ihb => exact .declarations ihs ihb

end Lox
