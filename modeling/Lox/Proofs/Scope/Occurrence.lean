import Lox.Proofs.Alike.Resolve

/-! Occurrences of a declaration: the tokens of a resolved program that stand for one of its local
variables or parameters. -/

namespace Lox

abbrev Tagged := List (Token × Bool)

def Stmt.varName? : Stmt → Option Token
  | .var name _ => some name
  | _ => none

def ownsScope (declared : Token) (params : List Token) (body : List Stmt) : Bool :=
  declared ∈ params ++ body.filterMap Stmt.varName?

def Reference.standsFor (declared : Token) (marks : List Bool) (r : Reference) : Bool :=
  r.name.lexeme = declared.lexeme && r.depth.any fun depth => marks.getD depth false

def Reference.tagged (declared : Token) (marks : List Bool) (r : Reference) : Token × Bool :=
  (r.name, r.standsFor declared marks)

def Tagged.binder (declared : Token) (marks : List Bool) (t : Token) : Token × Bool :=
  (t, !marks.isEmpty && t = declared)

def memberMarks (hasSuper : Bool) (marks : List Bool) : List Bool :=
  false :: if hasSuper then false :: marks else marks

mutual

def Expr.tagged (declared : Token) (marks : List Bool) : Expr → Tagged
  | .literal t _ => [(t, false)]
  | .ref r => [r.tagged declared marks]
  | .assign r value _ => r.tagged declared marks :: value.tagged declared marks
  | .get object t => object.tagged declared marks ++ [(t, false)]
  | .set object t value _ =>
    object.tagged declared marks ++ (t, false) :: value.tagged declared marks
  | .conditional c t yes no =>
    c.tagged declared marks ++ (t, false) ::
      (yes.tagged declared marks ++ no.tagged declared marks)
  | .lambda f => f.tagged declared marks
  | .comma l t r => l.tagged declared marks ++ (t, false) :: r.tagged declared marks
  | .binary l t r => l.tagged declared marks ++ (t, false) :: r.tagged declared marks
  | .logical l t r => l.tagged declared marks ++ (t, false) :: r.tagged declared marks
  | .unary t e => (t, false) :: e.tagged declared marks
  | .call callee t es =>
    callee.tagged declared marks ++ (t, false) :: taggedExprs declared marks es
  | .this r => [(r.name, false)]
  | .super r t => [(r.name, false), (t, false)]
  | .grouping t e => (t, false) :: e.tagged declared marks
  | .list t es => (t, false) :: taggedExprs declared marks es
  | .invalid t => [(t, false)]

def taggedExprs (declared : Token) (marks : List Bool) : List Expr → Tagged
  | [] => []
  | e :: es => e.tagged declared marks ++ taggedExprs declared marks es

def Stmt.tagged (declared : Token) (marks : List Bool) : Stmt → Tagged
  | .expression _ e => e.tagged declared marks
  | .print t e => (t, false) :: e.tagged declared marks
  | .var t none => [Tagged.binder declared marks t]
  | .var t (some e) => Tagged.binder declared marks t :: e.tagged declared marks
  | .block _ body => taggedStmts declared (ownsScope declared [] body :: marks) body
  | .ifElse t c yes none =>
    (t, false) :: (c.tagged declared marks ++ yes.tagged declared marks)
  | .ifElse t c yes (some no) =>
    (t, false) :: (c.tagged declared marks ++
      (yes.tagged declared marks ++ no.tagged declared marks))
  | .whileLoop t c body =>
    (t, false) :: (c.tagged declared marks ++ body.tagged declared marks)
  | .breakLoop t => [(t, false)]
  | .returnValue t none => [(t, false)]
  | .returnValue t (some e) => (t, false) :: e.tagged declared marks
  | .function f => f.tagged declared marks
  | .classDecl t parent _ methods statics =>
    (t, false) :: ((parent.map (Reference.tagged declared marks)).toList ++
      (taggedMembers declared (memberMarks parent.isSome marks) methods ++
        taggedMembers declared (memberMarks parent.isSome marks) statics))
  | .invalid t => [(t, false)]

def taggedStmts (declared : Token) (marks : List Bool) : List Stmt → Tagged
  | [] => []
  | s :: body => s.tagged declared marks ++ taggedStmts declared marks body

def Function.tagged (declared : Token) (marks : List Bool) : Function → Tagged
  | .mk head params _ body =>
    let names := (params.map Params.names).getD []
    let marks := ownsScope declared names body :: marks
    (head, false) :: (names.map (Tagged.binder declared marks) ++ taggedStmts declared marks body)

def taggedMembers (declared : Token) (marks : List Bool) : List Function → Tagged
  | [] => []
  | f :: fs => f.tagged declared marks ++ taggedMembers declared marks fs

end

/-- The names of a resolved program that stand for a local variable or a parameter: the declaration
itself and the uses whose depth leads to its scope. A global variable has none. -/
def occurrences (declared : Token) (body : List Stmt) : List Token :=
  ((taggedStmts declared [] body).filter fun x => x.2 && x.1.kind = .identifier).map Prod.fst

def Tagged.Lists (l : Tagged) (ts : List Token) : Prop :=
  ∀ t : Token, t.kind = .identifier → (l.map Prod.fst).count t = ts.count t

namespace Tagged.Lists

variable {l l' : Tagged} {ts ts' : List Token} {t : Token}

lemma nil : Lists [] [] := fun _ _ => rfl

lemma append (h : Lists l ts) (h' : Lists l' ts') : Lists (l ++ l') (ts ++ ts') := by
  intro t ht
  rw [List.map_append, List.count_append, List.count_append, h t ht, h' t ht]

lemma cons (h : Lists l ts) (b : Bool) : Lists ((t, b) :: l) (t :: ts) := by
  intro u hu
  rw [List.map_cons, List.count_cons, List.count_cons, h u hu]

theorem skip {k : Kind} (h : Lists l ts) (hk : t.kind = k) (hne : k ≠ .identifier) :
    Lists l (t :: ts) := by
  intro u hu
  have htu : (t == u) = false := beq_eq_false_iff_ne.mpr fun heq => hne (hk ▸ heq ▸ hu)
  rw [h u hu, List.count_cons, htu, if_neg Bool.false_ne_true, Nat.add_zero]

theorem add {k : Kind} (h : Lists l ts) (hk : t.kind = k) (hne : k ≠ .identifier) (b : Bool) :
    Lists ((t, b) :: l) ts := by
  intro u hu
  have htu : (t == u) = false := beq_eq_false_iff_ne.mpr fun heq => hne (hk ▸ heq ▸ hu)
  rw [List.map_cons, List.count_cons, h u hu, htu, if_neg Bool.false_ne_true, Nat.add_zero]

theorem closed {k : Kind} (h : Lists l ts) (hk : t.kind = k) (hne : k ≠ .identifier) :
    Lists l (ts ++ [t]) := by
  have hclosed := h.append (nil.skip hk hne)
  rwa [List.append_nil] at hclosed

lemma perm (h : Lists l ts) (hl : l'.Perm l) : Lists l' ts := by
  intro t ht
  rw [(hl.map Prod.fst).count_eq t, h t ht]

end Tagged.Lists

def Phrase.tagged (declared : Token) (marks : List Bool) : Phrase → Tagged
  | expression _ e => e.tagged declared marks
  | optional e => (e.map (Expr.tagged declared marks)).getD []
  | expressions es => taggedExprs declared marks es
  | items es => taggedExprs declared marks es
  | names ps => ps.map (Tagged.binder declared marks)
  | parameters ps => ps.names.map (Tagged.binder declared marks)
  | rest params _ body =>
    ((params.map Params.names).getD []).map (Tagged.binder declared marks) ++
      taggedStmts declared marks body
  | members ms => ms.flatMap fun m => m.2.tagged declared marks
  | superclass parent => (parent.map (Reference.tagged declared marks)).toList
  | binding s => s.tagged declared marks
  | expressionStatement s => s.tagged declared marks
  | forStart s => (s.map (Stmt.tagged declared marks)).getD []
  | statement _ _ s => s.tagged declared marks
  | declaration _ s => s.tagged declared marks
  | declarations _ body => taggedStmts declared marks body

section

variable {declared : Token} {marks : List Bool}

lemma Level.tagged_join (level : Level) (l : Expr) (op : Token) (r : Expr) :
    (level.join l op r).tagged declared marks =
      l.tagged declared marks ++ (op, false) :: r.tagged declared marks := by
  cases level <;> rfl

lemma perm_membersOf (ms : List (Bool × Function)) :
    (taggedMembers declared marks (membersOf false ms) ++
      taggedMembers declared marks (membersOf true ms)).Perm
        (ms.flatMap fun m => m.2.tagged declared marks) := by
  induction ms with
  | nil => exact .nil
  | cons m ms ih =>
    obtain ⟨isStatic, f⟩ := m
    have hfirst := ih.append_left (f.tagged declared marks)
    cases isStatic with
    | false => simpa [membersOf, taggedMembers] using hfirst
    | true =>
      have hswap := List.perm_append_comm_assoc (taggedMembers declared marks (membersOf false ms))
        (f.tagged declared marks) (taggedMembers declared marks (membersOf true ms))
      simpa [membersOf, taggedMembers] using hswap.trans hfirst

lemma Tagged.Lists.expandFor {keyword : Token} {k : Kind} (hk : keyword.kind = k)
    (hne : k ≠ .identifier) {start : Option Stmt} {c step : Option Expr} {body : Stmt}
    {ts us vs ws : List Token}
    (hstart : ∀ marks, ((Phrase.forStart start).tagged declared marks).Lists ts)
    (hc : ∀ marks, ((Phrase.optional c).tagged declared marks).Lists us)
    (hstep : ∀ marks, ((Phrase.optional step).tagged declared marks).Lists vs)
    (hbody : ∀ marks, (body.tagged declared marks).Lists ws) (marks : List Bool) :
    ((Readers.expandFor keyword start c step body).tagged declared marks).Lists
      (ts ++ (us ++ (vs ++ ws))) := by
  have hcondition : ∀ marks,
      ((c.getD (Readers.alwaysTrue keyword)).tagged declared marks).Lists us := by
    intro marks
    cases c with
    | none => exact (hc marks).add (k := .trueWord) rfl (by decide) false
    | some e => exact hc marks
  have hloop : ∀ {body : Stmt} {ws : List Token},
      (∀ marks, (body.tagged declared marks).Lists ws) → ∀ marks,
        ((Stmt.whileLoop keyword (c.getD (Readers.alwaysTrue keyword)) body).tagged declared
          marks).Lists (us ++ ws) :=
    fun hbody marks => ((hcondition marks).append (hbody marks)).add hk hne false
  have hpair : ∀ {s s' : Stmt} {n : Nat} {ts ts' : List Token},
      (∀ marks, (s.tagged declared marks).Lists ts) →
      (∀ marks, (s'.tagged declared marks).Lists ts') → ∀ marks,
        ((Stmt.block n [s, s']).tagged declared marks).Lists (ts ++ ts') := by
    intro s s' n ts ts' h h' marks
    rw [Stmt.tagged, taggedStmts, taggedStmts, taggedStmts, List.append_nil]
    exact (h _).append (h' _)
  -- The step stands before the body in the text and behind it in the loop.
  have hend : ∀ {step : Expr}, (∀ marks, (step.tagged declared marks).Lists vs) → ∀ marks,
      ((Stmt.block keyword.line [body, .expression keyword.line step]).tagged declared
        marks).Lists (vs ++ ws) := by
    intro step hstep marks t ht
    have hstep' : ∀ marks, ((Stmt.expression keyword.line step).tagged declared marks).Lists vs :=
      hstep
    have hswapped : ((Stmt.block keyword.line [body, .expression keyword.line step]).tagged
        declared marks).Lists (ws ++ vs) := hpair hbody hstep' marks
    rw [hswapped t ht, List.count_append, List.count_append, Nat.add_comm]
  have hloop' : ∀ marks, ((Readers.expandFor keyword none c step body).tagged declared marks).Lists
      (us ++ (vs ++ ws)) := by
    cases step with
    | none =>
      refine hloop fun marks t ht => ?_
      rw [List.count_append, ← hstep marks t ht, ← hbody marks t ht]
      exact (Nat.zero_add _).symm
    | some step => exact hloop (hend hstep)
  cases start with
  | none =>
    intro t ht
    rw [List.count_append, ← hstart marks t ht, hloop' marks t ht]
    exact (Nat.zero_add _).symm
  | some first => exact hpair hstart hloop' marks

end

lemma Spells.lists {declared : Token} {φ : Phrase} {ts : List Token} (h : Spells φ ts) :
    ∀ marks, (φ.tagged declared marks).Lists ts := by
  induction h with
  | pass _ _ ih => exact ih
  | @join level _ _ _ _ _ _ _ _ ihl ihr =>
    intro marks
    rw [Phrase.tagged, Level.tagged_join]
    exact (ihl marks).append ((ihr marks).cons false)
  | lambda _ _ ih => exact fun marks => (ih _).cons false
  | conditional _ hc _ _ _ _ ihc ihy ihn =>
    exact fun marks =>
      (ihc marks).append (((ihy marks).append ((ihn marks).skip hc (by decide))).cons false)
  | assign hk _ _ iht ihv =>
    exact fun marks => (iht marks).append ((ihv marks).skip hk (by decide))
  | set hk _ _ iht ihv =>
    intro marks
    have hset := (iht marks).append ((ihv marks).skip hk (by decide))
    rwa [Phrase.tagged, Expr.tagged, List.append_assoc] at hset
  | sign _ _ ih => exact fun marks => (ih marks).cons false
  | call ho hc _ _ _ ihc ihes =>
    intro marks
    have hclosing := (ihes marks).append (Tagged.Lists.nil.skip hc (by decide))
    rw [List.append_nil] at hclosing
    exact (ihc marks).append ((hclosing.skip ho (by decide)).add hc (by decide) false)
  | get hd _ _ ih =>
    exact fun marks => (ih marks).append ((Tagged.Lists.nil.cons false).skip hd (by decide))
  | literal _ => exact fun _ => .cons .nil false
  | this _ => exact fun _ => .cons .nil false
  | ref _ => exact fun _ => .cons .nil _
  | super _ hd _ => exact fun _ => .cons (.skip (.cons .nil false) hd (by decide)) false
  | grouping _ hc _ ih => exact fun marks => ((ih marks).closed hc (by decide)).cons false
  | list _ hc _ ih => exact fun marks => ((ih marks).closed hc (by decide)).cons false
  | absent => exact fun _ => .nil
  | present _ ih => exact ih
  | lastExpression _ ih =>
    intro marks
    rw [Phrase.tagged, taggedExprs, taggedExprs, List.append_nil]
    exact ih marks
  | moreExpressions hc _ _ ihe ihes =>
    exact fun marks => (ihe marks).append ((ihes marks).skip hc (by decide))
  | noItems => exact fun _ => .nil
  | items _ ih => exact ih
  | lastName _ => exact fun _ => .cons .nil _
  | moreNames _ hc _ ih => exact fun marks => ((ih marks).skip hc (by decide)).cons _
  | noParameters ho hc => exact fun _ => .skip (.skip .nil hc (by decide)) ho (by decide)
  | parameters ho hc _ _ ih =>
    exact fun marks => ((ih marks).closed hc (by decide)).skip ho (by decide)
  | getter ho hc _ ih => exact fun marks => ((ih marks).closed hc (by decide)).skip ho (by decide)
  | rest _ _ ihp ihb => exact fun marks => (ihp marks).append (ihb marks)
  | noMembers => exact fun _ => .nil
  | method _ _ _ ihf ihms => exact fun marks => ((ihf _).append (ihms marks)).cons false
  | staticMember hw _ _ _ ihf ihms =>
    exact fun marks => (((ihf _).append (ihms marks)).cons false).skip hw (by decide)
  | noSuperclass => exact fun _ => .nil
  | superclass hl _ => exact fun _ => .skip (.cons .nil _) hl (by decide)
  | classDecl hw _ ho hc _ _ ihp ihms =>
    intro marks
    have hmembers := fun marks => ((ihms marks).perm (perm_membersOf _)).closed hc (by decide)
    exact (((ihp marks).append ((hmembers _).skip ho (by decide))).cons false).skip hw (by decide)
  | function hw _ _ ih => exact fun marks => ((ih _).cons false).skip hw (by decide)
  | uninitialized _ hs => exact fun _ => .cons (.skip .nil hs (by decide)) _
  | initialized _ he hs _ ih =>
    exact fun marks => (((ih marks).closed hs (by decide)).skip he (by decide)).cons _
  | variableDecl hw _ ih => exact fun marks => (ih marks).skip hw (by decide)
  | statement _ ih => exact ih
  | expressionStatement hs _ ih => exact fun marks => (ih marks).closed hs (by decide)
  | expression _ ih => exact ih
  | breakLoop _ hs => exact fun _ => .cons (.skip .nil hs (by decide)) false
  | print _ hs _ ih => exact fun marks => ((ih marks).closed hs (by decide)).cons false
  | @returnValue _ _ _ e _ _ hs _ ih =>
    intro marks
    cases e with
    | none => exact ((ih marks).closed hs (by decide)).cons false
    | some e => exact ((ih marks).closed hs (by decide)).cons false
  | block ho hc _ ih => exact fun marks => ((ih _).closed hc (by decide)).skip ho (by decide)
  | ifOnly _ ho hc _ _ ihc ihy =>
    exact fun marks =>
      (((ihc marks).append ((ihy marks).skip hc (by decide))).skip ho (by decide)).cons false
  | ifElse _ ho hc hw _ _ _ ihc ihy ihn =>
    exact fun marks => (((ihc marks).append (((ihy marks).append
      ((ihn marks).skip hw (by decide))).skip hc (by decide))).skip ho (by decide)).cons false
  | whileLoop _ ho hc _ _ ihc ihb =>
    exact fun marks =>
      (((ihc marks).append ((ihb marks).skip hc (by decide))).skip ho (by decide)).cons false
  | forNothing hs => exact fun _ => .skip .nil hs (by decide)
  | forVariable hw _ ih => exact fun marks => (ih marks).skip hw (by decide)
  | forExpression _ ih => exact ih
  | forLoop hk ho hs hc _ _ _ _ ihi ihc ihs ihb =>
    intro marks
    have hloop := Tagged.Lists.expandFor hk (by decide) ihi ihc
      (fun marks => (ihs marks).skip hs (by decide)) (fun marks => (ihb marks).skip hc (by decide))
      marks
    exact (hloop.skip ho (by decide)).skip hk (by decide)
  | noDeclarations => exact fun _ => .nil
  | declarations _ _ ihs ih => exact fun marks => (ihs marks).append (ih marks)

def Tagged.Same (l l' : Tagged) : Prop := l.map Prod.fst = l'.map Prod.fst

namespace Tagged.Same

variable {l l' m m' : Tagged}

lemma refl (l : Tagged) : l.Same l := rfl

lemma append (h : l.Same l') (h' : m.Same m') : (l ++ m).Same (l' ++ m') := by
  rw [Same, List.map_append, List.map_append, h, h']

lemma cons {t t' : Token} (ht : t = t') (h : l.Same l') (b b' : Bool) :
    Same ((t, b) :: l) ((t', b') :: l') := by
  rw [Same, List.map_cons, List.map_cons, h, ht]

lemma binders (declared : Token) (marks marks' : List Bool) (ts : List Token) :
    Same (ts.map (binder declared marks)) (ts.map (binder declared marks')) := by
  rw [Same, List.map_map, List.map_map]
  rfl

lemma superclass {declared : Token} {marks marks' : List Bool} {parent parent' : Option Reference}
    (h : parent.map Reference.name = parent'.map Reference.name) :
    Same (parent.map (Reference.tagged declared marks)).toList
      (parent'.map (Reference.tagged declared marks')).toList := by
  cases parent with
  | none => cases parent' with
    | none => exact .refl _
    | some => cases h
  | some r => cases parent' with
    | none => cases h
    | some r' => exact .cons (Option.some.inj h) (.refl _) _ _

end Tagged.Same

lemma Resolver.name_resolveSuperclass (name : Token) (parent : Option Reference) (σ : Scopes) :
    ((resolveSuperclass name parent).result σ).map Reference.name =
      parent.map Reference.name := by
  cases parent with
  | none => rfl
  | some parent =>
    unfold resolveSuperclass
    dsimp only
    split
    · exact congrArg some (name_readName parent _)
    · exact congrArg some (name_readName parent _)

section

open Resolver

variable (declared : Token)

mutual

lemma Expr.same_tagged (around : Surroundings) : (e : Expr) → (σ : Scopes) →
    (marks marks' : List Bool) →
      (((resolveExpr around e).result σ).tagged declared marks).Same (e.tagged declared marks')
  | .literal _ _, _, _, _ => .refl _
  | .ref r, σ, _, _ => .cons (name_readName r σ) (.refl _) _ _
  | .assign r value _, σ, marks, marks' =>
    .cons (name_find r false _) (value.same_tagged around σ marks marks') _ _
  | .get object _, σ, marks, marks' => (object.same_tagged around σ marks marks').append (.refl _)
  | .set object _ value _, σ, marks, marks' =>
    (object.same_tagged around σ marks marks').append
      (.cons rfl (value.same_tagged around _ marks marks') _ _)
  | .conditional c _ yes no, σ, marks, marks' =>
    (c.same_tagged around σ marks marks').append
      (.cons rfl ((yes.same_tagged around _ marks marks').append
        (no.same_tagged around _ marks marks')) _ _)
  | .lambda f, σ, marks, marks' => f.same_tagged around .ordinary σ marks marks'
  | .comma l _ r, σ, marks, marks' =>
    (l.same_tagged around σ marks marks').append
      (.cons rfl (r.same_tagged around _ marks marks') _ _)
  | .binary l _ r, σ, marks, marks' =>
    (l.same_tagged around σ marks marks').append
      (.cons rfl (r.same_tagged around _ marks marks') _ _)
  | .logical l _ r, σ, marks, marks' =>
    (l.same_tagged around σ marks marks').append
      (.cons rfl (r.same_tagged around _ marks marks') _ _)
  | .unary _ e, σ, marks, marks' => .cons rfl (e.same_tagged around σ marks marks') _ _
  | .call callee _ es, σ, marks, marks' =>
    (callee.same_tagged around σ marks marks').append
      (.cons rfl (same_taggedExprs around es _ marks marks') _ _)
  | .this r, σ, _, _ => .cons (name_readThis around r σ) (.refl _) _ _
  | .super r _, σ, _, _ => .cons (name_readSuper around r σ) (.refl _) _ _
  | .grouping _ e, σ, marks, marks' => .cons rfl (e.same_tagged around σ marks marks') _ _
  | .list _ es, σ, marks, marks' => .cons rfl (same_taggedExprs around es σ marks marks') _ _
  | .invalid _, _, _, _ => .refl _

lemma same_taggedExprs (around : Surroundings) : (es : List Expr) → (σ : Scopes) →
    (marks marks' : List Bool) →
      (taggedExprs declared marks ((resolveExprs around es).result σ)).Same
        (taggedExprs declared marks' es)
  | [], _, _, _ => .refl _
  | e :: es, σ, marks, marks' =>
    (e.same_tagged around σ marks marks').append (same_taggedExprs around es _ marks marks')

lemma Stmt.same_tagged (around : Surroundings) : (s : Stmt) → (σ : Scopes) →
    (marks marks' : List Bool) →
      (((resolveStmt around s).result σ).tagged declared marks).Same (s.tagged declared marks')
  | .expression _ e, σ, marks, marks' => e.same_tagged around σ marks marks'
  | .print _ e, σ, marks, marks' => .cons rfl (e.same_tagged around σ marks marks') _ _
  | .var _ none, _, _, _ => .cons rfl (.refl _) _ _
  | .var _ (some e), _, marks, marks' => .cons rfl (e.same_tagged around _ marks marks') _ _
  | .block _ body, σ, marks, marks' => same_taggedStmts around body σ.enter _ _
  | .ifElse _ c yes none, σ, marks, marks' =>
    .cons rfl ((c.same_tagged around σ marks marks').append
      (yes.same_tagged around _ marks marks')) _ _
  | .ifElse _ c yes (some no), σ, marks, marks' =>
    .cons rfl ((c.same_tagged around σ marks marks').append
      ((yes.same_tagged around _ marks marks').append (no.same_tagged around _ marks marks'))) _ _
  | .whileLoop _ c body, σ, marks, marks' =>
    .cons rfl ((c.same_tagged around σ marks marks').append
      (body.same_tagged around _ marks marks')) _ _
  | .breakLoop _, _, _, _ => .refl _
  | .returnValue _ none, _, _, _ => .refl _
  | .returnValue _ (some e), _, marks, marks' =>
    .cons rfl (e.same_tagged around _ marks marks') _ _
  | .function f, _, marks, marks' => f.same_tagged around .ordinary _ marks marks'
  | .classDecl name parent _ methods statics, σ, marks, marks' => by
    have hparent := name_resolveSuperclass name parent ((declareReady name true).after σ)
    let p : Site := ⟨around, σ, []⟩
    let q := p.inClass name parent methods statics
    change ((p.stmt (.classDecl name parent _ methods statics)).tagged declared marks).Same _
    rw [Site.stmt_classDecl]
    exact .cons rfl (.append (.superclass hparent)
      (.append (same_taggedMembers q.around false methods q.scopes _ _)
        (same_taggedMembers q.around true statics _ _ _))) _ _
  | .invalid _, _, _, _ => .refl _

lemma same_taggedStmts (around : Surroundings) : (body : List Stmt) → (σ : Scopes) →
    (marks marks' : List Bool) →
      (taggedStmts declared marks ((resolveStmts around body).result σ)).Same
        (taggedStmts declared marks' body)
  | [], _, _, _ => .refl _
  | s :: body, σ, marks, marks' =>
    (s.same_tagged around σ marks marks').append (same_taggedStmts around body _ marks marks')

lemma Function.same_tagged (around : Surroundings) (routine : Routine) : (f : Function) →
    (σ : Scopes) → (marks marks' : List Bool) →
      (((resolveFunction around routine f).result σ).tagged declared marks).Same
        (f.tagged declared marks')
  | .mk _ _ _ body, _, _, _ =>
    .cons rfl ((Tagged.Same.binders declared _ _ _).append
      (same_taggedStmts _ body _ _ _)) _ _

lemma same_taggedMembers (around : Surroundings) (isStatic : Bool) : (fs : List Function) →
    (σ : Scopes) → (marks marks' : List Bool) →
      (taggedMembers declared marks ((resolveMembers around isStatic fs).result σ)).Same
        (taggedMembers declared marks' fs)
  | [], _, _, _ => .refl _
  | f :: fs, σ, marks, marks' =>
    (f.same_tagged around _ σ marks marks').append
      (same_taggedMembers around isStatic fs _ marks marks')

end

end

end Lox
