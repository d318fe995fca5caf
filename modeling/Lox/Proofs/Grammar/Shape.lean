import Lox.Proofs.Eval.Expression
import Lox.Proofs.Syntax.Shape

/-! What is read without an error has the shape that evaluation takes apart, and a placeholder is
built only after an error has been reported. -/

namespace Lox

open Lox.Tree

lemma mem_binaryOperators_iff {op : Token} :
    op.kind ∈ binaryOperators ↔
      ∀ a b : Value, ∀ name, a.binary op b ≠ .error (.unknownOperator name) := by
  constructor
  · intro h a b name hf
    cases Value.isOrdinary_binary h hf
  · intro h
    have hzero := h (.number 0) (.number 0) op.lexeme
    unfold Value.binary Value.ofNumbers at hzero
    refine Decidable.byContradiction fun hk => hzero ?_
    cases hop : op.kind <;> simp_all [binaryOperators]

lemma mem_signs_iff {op : Token} :
    op.kind ∈ [.bang, .minus] ↔
      ∀ v : Value, ∀ name, v.unary op ≠ .error (.unknownUnaryOperator name) := by
  constructor
  · intro h v name hf
    cases Value.isOrdinary_unary h hf
  · intro h
    have hnil := h .nil op.lexeme
    unfold Value.unary at hnil
    split at hnil <;> simp_all

theorem Function.isGetter_iff {f : Function} {l : String} :
    f.isGetter = true ↔ ∃ line depth head body,
      f.tree l = .node l line depth [.token head, .absent, .tree body] := by
  obtain ⟨head, params, line, body⟩ := f
  cases params with
  | none => exact iff_of_true rfl ⟨_, _, _, _, rfl⟩
  | some ps =>
    refine iff_of_false nofun ?_
    rintro ⟨_, _, _, _, h⟩
    simp [Function.tree, Leaf.ofParams, plain] at h

def Phrase.Shaped : Phrase → Prop
  | expression _ e => e.tree.IsExpr
  | optional e => ∀ x ∈ e, x.tree.IsExpr
  | expressions es => ∀ e ∈ es, e.tree.IsExpr
  | items es => ∀ e ∈ es, e.tree.IsExpr
  | names ps => ∀ p ∈ ps, p.kind = .identifier
  | parameters ps => IsParams (.plain "params" ps.line (ps.names.map .token))
  | rest params _ body =>
    (∀ ps ∈ params, IsParams (.plain "params" ps.line (ps.names.map .token))) ∧
      ∀ s ∈ body, s.tree.IsStmt
  | members ms => ∀ m ∈ ms, (m.2.tree "function").IsMember
  | superclass parent => ∀ p ∈ parent, p.name.kind = .identifier
  | binding s => s.tree.IsStmt
  | expressionStatement s => s.tree.IsStmt ∧ s.tree.label ∉ declaringLabels
  | forStart s => ∀ x ∈ s, x.tree.IsStmt
  | statement _ _ s => s.tree.IsStmt ∧ s.tree.label ∉ declaringLabels
  | declaration _ s => s.tree.IsStmt
  | declarations _ body => ∀ s ∈ body, s.tree.IsStmt

section Nodes

variable {es : List Expr} {body : List Stmt} {fs : List Function}

lemma Tree.kind_of_isExpr_ref {target : Reference} (h : (Expr.ref target).tree.IsExpr) :
    target.name.kind = .identifier := by
  generalize ht : (Expr.ref target).tree = t at h
  cases h <;> simp_all [Expr.tree, ofReference]

lemma Tree.of_isExpr_get {object : Expr} {name : Token} (h : (Expr.get object name).tree.IsExpr) :
    name.kind = .identifier ∧ object.tree.IsExpr := by
  generalize ht : (Expr.get object name).tree = t at h
  cases h <;> simp_all [Expr.tree, plain]

lemma Tree.isExpr_call {callee : Expr} {paren : Token} (hes : ∀ e ∈ es, e.tree.IsExpr)
    (hlength : es.length ≤ maxArguments) (h : callee.tree.IsExpr) :
    (Expr.call callee paren es).tree.IsExpr := by
  rw [Expr.tree, exprLeaves_eq]
  exact .call (by simpa using hlength) h (List.forall_mem_map.mpr hes)

lemma Tree.isExpr_list {bracket : Token} (hes : ∀ e ∈ es, e.tree.IsExpr) :
    (Expr.list bracket es).tree.IsExpr := by
  rw [Expr.tree, exprLeaves_eq]
  exact .list (List.forall_mem_map.mpr hes)

lemma Tree.isStmt_block {line : Nat} (h : ∀ s ∈ body, s.tree.IsStmt) :
    (Stmt.block line body).tree.IsStmt := by
  rw [Stmt.tree, stmtLeaves_eq]
  exact .block (List.forall_mem_map.mpr h)

lemma Tree.isBody {line : Nat} (h : ∀ s ∈ body, s.tree.IsStmt) :
    IsBody (.plain "body" line (stmtLeaves body)) := by
  rw [stmtLeaves_eq]
  exact .mk (List.forall_mem_map.mpr h)

lemma Tree.isMember {head : Token} {params : Option Params} {line : Nat}
    (hhead : head.kind = .identifier) (h : (Phrase.rest params line body).Shaped) :
    ((Function.mk head params line body).tree "function").IsMember := by
  cases params with
  | none => exact .getter hhead (isBody h.2)
  | some ps => exact .method hhead (h.1 ps rfl) (isBody h.2)

lemma Tree.forall_mem_membersOf {isStatic : Bool} {ms : List (Bool × Function)}
    {P : Function → Prop} (h : ∀ m ∈ ms, P m.2) : ∀ f ∈ membersOf isStatic ms, P f := by
  intro f hf
  obtain ⟨m, hm, hfm⟩ := List.mem_filterMap.mp hf
  split at hfm
  · obtain rfl := Option.some.inj hfm
    exact h m hm
  · cases hfm

lemma Tree.isStmt_classDecl {name : Token} {parent : Option Reference} {line : Nat}
    {ms : List (Bool × Function)} (hname : name.kind = .identifier)
    (hparent : ∀ p ∈ parent, p.name.kind = .identifier)
    (h : ∀ m ∈ ms, (m.2.tree "function").IsMember) :
    (Stmt.classDecl name parent line (membersOf false ms) (membersOf true ms)).tree.IsStmt := by
  have hmembers : ∀ isStatic, ∀ t ∈ (membersOf isStatic ms).map (Function.tree "function"),
      t.IsMember := fun _ => List.forall_mem_map.mpr (forall_mem_membersOf h)
  cases parent with
  | none =>
    simp only [Stmt.tree, memberLeaves_eq]
    exact .classDecl hname .absent (hmembers false) (hmembers true)
  | some p =>
    simp only [Stmt.tree, memberLeaves_eq]
    exact .classDecl hname (.ref (hparent p rfl)) (hmembers false) (hmembers true)

end Nodes

lemma Level.shaped_join {level : Level} {l r : Expr} {op : Token} (hop : op.kind ∈ level.ops)
    (hl : l.tree.IsExpr) (hr : r.tree.IsExpr) : (level.join l op r).tree.IsExpr := by
  have hbinary : ∀ level ∈ [Level.equality, .comparison, .sum, .product],
      level.ops ⊆ binaryOperators := by decide
  cases level with
  | comma => exact .comma hl hr
  | or | and =>
    have hlogical : op.kind ∈ [.orWord, .andWord] := by simp_all [Level.ops]
    exact .logical hlogical hl hr
  | equality | comparison | sum | product =>
    have hbinary := hbinary _ (by decide) hop
    exact .binary hbinary hl hr
  | _ => cases hop

theorem Tree.isStmt_expandFor {keyword : Token} {start : Option Stmt} {c step : Option Expr}
    {body : Stmt} (hstart : ∀ s ∈ start, s.tree.IsStmt) (hc : ∀ e ∈ c, e.tree.IsExpr)
    (hstep : ∀ e ∈ step, e.tree.IsExpr) (hbody : body.tree.IsStmt)
    (hlabel : body.tree.label ∉ declaringLabels) :
    (Readers.expandFor keyword start c step body).tree.IsStmt ∧
      (Readers.expandFor keyword start c step body).tree.label ∉ declaringLabels := by
  have hcondition : (c.getD (Readers.alwaysTrue keyword)).tree.IsExpr := by
    cases c with
    | none => exact .literal rfl
    | some e => exact hc e rfl
  have hloop : ∀ inner : Stmt, inner.tree.IsStmt → inner.tree.label ∉ declaringLabels →
      (Stmt.whileLoop keyword (c.getD (Readers.alwaysTrue keyword)) inner).tree.IsStmt :=
    fun _ hinner hl => .whileLoop hcondition hinner hl
  have hblock : ∀ e ∈ step,
      (Stmt.block keyword.line [body, .expression keyword.line e]).tree.IsStmt := by
    intro e he
    refine isStmt_block fun s hs => ?_
    obtain rfl | hs := List.mem_cons.mp hs
    · exact hbody
    · obtain rfl := List.mem_singleton.mp hs
      exact .expression (hstep e he)
  have hfirst : ∀ first ∈ start, ∀ loop : Stmt, loop.tree.IsStmt →
      (Stmt.block keyword.line [first, loop]).tree.IsStmt := by
    intro first hf loop hl
    refine isStmt_block fun s hs => ?_
    obtain rfl | hs := List.mem_cons.mp hs
    · exact hstart s hf
    · obtain rfl := List.mem_singleton.mp hs
      exact hl
  have hwhile : "while_stmt" ∉ declaringLabels := by decide
  have hplain : "block" ∉ declaringLabels := by decide
  cases step with
  | none =>
    cases start with
    | none => exact ⟨hloop _ hbody hlabel, hwhile⟩
    | some first => exact ⟨hfirst first rfl _ (hloop _ hbody hlabel), hplain⟩
  | some e =>
    cases start with
    | none => exact ⟨hloop _ (hblock e rfl) hplain, hwhile⟩
    | some first => exact ⟨hfirst first rfl _ (hloop _ (hblock e rfl) hplain), hplain⟩

theorem Spells.shaped {φ : Phrase} {ts : List Token} (h : Spells φ ts) : φ.Shaped := by
  induction h with
  | pass _ _ ih | items _ ih | variableDecl _ _ ih => exact ih
  | join hop _ _ ihl ihr => exact Level.shaped_join hop ihl ihr
  | lambda _ _ ih => exact .lambda (ih.1 _ rfl) (isBody ih.2)
  | conditional _ _ _ _ _ _ ihc ihy ihn => exact .conditional ihc ihy ihn
  | assign _ _ _ iht ihv => exact .assign (kind_of_isExpr_ref iht) ihv
  | set _ _ _ iht ihv =>
    obtain ⟨hname, hobject⟩ := of_isExpr_get iht
    exact .set hname hobject ihv
  | sign hop _ ih => exact .unary hop ih
  | call _ _ hlength _ _ ihc ihes => exact isExpr_call ihes hlength ihc
  | get _ hname _ ih => exact .get hname ih
  | literal hl => exact .literal hl
  | this hk => exact .this hk
  | ref hk => exact .ref hk
  | super hk _ hm => exact .super hk hm
  | grouping _ _ _ ih => exact .grouping ih
  | list _ _ _ ih => exact isExpr_list ih
  | absent | forNothing | noSuperclass => exact nofun
  | present _ ih =>
    rintro _ ⟨⟩
    exact ih
  | lastExpression _ ih => exact List.forall_mem_singleton.mpr ih
  | moreExpressions _ _ _ ihe ihes => exact List.forall_mem_cons.mpr ⟨ihe, ihes⟩
  | noItems | noMembers | noDeclarations => exact fun _ h => absurd h List.not_mem_nil
  | lastName hn => exact List.forall_mem_singleton.mpr hn
  | moreNames hn _ _ ih => exact List.forall_mem_cons.mpr ⟨hn, ih⟩
  | noParameters => exact .mk (Nat.zero_le _) fun _ h => absurd h List.not_mem_nil
  | parameters _ _ hlength _ ih => exact .mk hlength ih
  | getter _ _ _ ih => exact ⟨nofun, ih⟩
  | rest _ _ ihp ihb =>
    refine ⟨?_, ihb.2⟩
    rintro _ ⟨⟩
    exact ihp
  | method hn _ _ ihf ihms => exact List.forall_mem_cons.mpr ⟨isMember hn ihf, ihms⟩
  | staticMember _ hn _ _ ihf ihms => exact List.forall_mem_cons.mpr ⟨isMember hn ihf, ihms⟩
  | superclass _ hn =>
    rintro _ ⟨⟩
    exact hn
  | classDecl _ hn _ _ _ _ ihp ihms => exact isStmt_classDecl hn ihp ihms
  | function _ hn _ ih => exact .function hn (ih.1 _ rfl) (isBody ih.2)
  | uninitialized hn _ => exact .uninitialized hn
  | initialized hn _ _ _ ih => exact .initialized hn ih
  | statement _ ih => exact ih.1
  | expressionStatement _ _ ih => exact ⟨.expression ih, of_decide_eq_true rfl⟩
  | expression _ ih => exact ih
  | breakLoop => exact ⟨.breakLoop, of_decide_eq_true rfl⟩
  | print _ _ _ ih => exact ⟨.print ih, of_decide_eq_true rfl⟩
  | @returnValue _ _ _ e _ _ _ _ ih =>
    cases e with
    | none => exact ⟨.returnNothing, of_decide_eq_true rfl⟩
    | some e => exact ⟨.returnValue (ih e rfl), of_decide_eq_true rfl⟩
  | block _ _ _ ih => exact ⟨isStmt_block ih, of_decide_eq_true rfl⟩
  | ifOnly _ _ _ _ _ ihc ihy => exact ⟨.ifOnly ihc ihy.1 ihy.2, of_decide_eq_true rfl⟩
  | ifElse _ _ _ _ _ _ _ ihc ihy ihn =>
    exact ⟨.ifElse ihc ihy.1 ihy.2 ihn.1 ihn.2, of_decide_eq_true rfl⟩
  | whileLoop _ _ _ _ _ ihc ihb => exact ⟨.whileLoop ihc ihb.1 ihb.2, of_decide_eq_true rfl⟩
  | forVariable _ _ ih =>
    rintro _ ⟨⟩
    exact ih
  | forExpression _ ih =>
    rintro _ ⟨⟩
    exact ih.1
  | forLoop _ _ _ _ _ _ _ _ ihi ihc ihs ihb => exact isStmt_expandFor ihi ihc ihs ihb.1 ihb.2
  | declarations _ _ ihs ih => exact List.forall_mem_cons.mpr ⟨ihs, ih⟩

/-- Whether an error has been reported between two places of a cursor. -/
def Cursor.Blames (c d : Cursor) : Prop :=
  ∃ new, d.reports = c.reports ++ new ∧ new ≠ [] ∧ ∀ x ∈ new, x.isError = true

namespace Reader

variable {α β : Type} {r : Reader α} {P : α → List Token → List Token → Prop} {c d : Cursor}

lemma of_bind_eq_ok {f : α → Reader β} {y : β} (h : (r >>= f) c = .ok y d) :
    ∃ x e, r c = .ok x e ∧ f x e = .ok y d := by
  change EStateM.bind r f c = .ok y d at h
  unfold EStateM.bind at h
  cases hr : r c with
  | ok x e =>
    rw [hr] at h
    exact ⟨x, e, rfl, h⟩
  | error e c' =>
    rw [hr] at h
    cases h

lemma exists_ok {p : α → Bool}
    (h : (match r c with
      | .ok x _ => p x
      | .error _ _ => false) = true) : ∃ x d, r c = .ok x d ∧ p x = true := by
  cases hr : r c with
  | ok x d =>
    rw [hr] at h
    exact ⟨x, d, rfl, h⟩
  | error m d =>
    rw [hr] at h
    cases h

theorem Sound.blames_ok (h : Sound r P) (hc : c.finish.kind = .finish) {x : α}
    (hr : r c = .ok x d) (hx : ∀ ts rest, ¬P x ts rest) : c.Blames d := by
  have hsound := h c hc trivial
  rw [hr] at hsound
  obtain ⟨ts, new, hpass, hp⟩ := hsound
  exact ⟨new, hpass.reports, fun hnil => hx _ _ (hp hnil), hpass.errors⟩

theorem Sound.blames_error (h : Sound r P) (hc : c.finish.kind = .finish) {m : Misread}
    (hr : r c = .error m d) : c.Blames d := by
  have hsound := h c hc trivial
  rw [hr] at hsound
  obtain ⟨ts, new, hpass, hnew⟩ := hsound
  exact ⟨new, hpass.reports, hnew, hpass.errors⟩

def Gives (r : Reader α) (Q : α → Prop) : Prop := ∀ c x d, r c = .ok x d → Q x

lemma gives_pure {x : α} {Q : α → Prop} (h : Q x) : Gives (pure x) Q := by
  rintro c _ _ ⟨⟩
  exact h

lemma gives_fail {t : Token} {problem : Problem} {Q : α → Prop} : Gives (fail t problem) Q :=
  fun _ _ _ h => nomatch h

lemma Gives.after {f : α → Reader β} {Q : β → Prop} (h : ∀ x, Gives (f x) Q) :
    Gives (r >>= f) Q := by
  intro c y d hy
  obtain ⟨x, e, -, hf⟩ := of_bind_eq_ok hy
  exact h x e y d hf

end Reader

namespace Readers

open Reader

variable {inner : Readers}

def IsBare (s : Stmt) : Prop := s.tree.label ∉ declaringLabels

lemma isBare_expandFor (keyword : Token) (start : Option Stmt) (c step : Option Expr)
    (body : Stmt) : IsBare (expandFor keyword start c step body) := by
  cases start with
  | none => exact (by decide : "while_stmt" ∉ declaringLabels)
  | some first => exact (by decide : "block" ∉ declaringLabels)

lemma gives_readExpressionStmt : Gives inner.readExpressionStmt IsBare := by
  intro c s d h
  unfold readExpressionStmt at h
  obtain ⟨start, _, -, h⟩ := of_bind_eq_ok h
  obtain ⟨value, _, -, h⟩ := of_bind_eq_ok h
  obtain ⟨_, _, -, h⟩ := of_bind_eq_ok h
  cases h
  exact (by decide : "expression_stmt" ∉ declaringLabels)

lemma gives_readBreak (inLoop : Bool) (keyword : Token) :
    Gives (readBreak inLoop keyword) IsBare := by
  have hlast : Gives (expect .breakEnd >>= fun _ => pure (.breakLoop keyword)) IsBare :=
    .after fun _ => gives_pure (by decide : "break_stmt" ∉ declaringLabels)
  cases inLoop with
  | false => exact .after fun _ => hlast
  | true => exact hlast

lemma gives_readIf (inLoop : Bool) (keyword : Token) :
    Gives (inner.readIf inLoop keyword) IsBare := by
  intro c s d h
  rw [readIf_eq] at h
  obtain ⟨_, _, -, h⟩ := of_bind_eq_ok h
  obtain ⟨condition, _, -, h⟩ := of_bind_eq_ok h
  obtain ⟨_, _, -, h⟩ := of_bind_eq_ok h
  obtain ⟨yes, _, -, h⟩ := of_bind_eq_ok h
  obtain ⟨_, _, -, h⟩ := of_bind_eq_ok h
  obtain ⟨no, _, -, h⟩ := of_bind_eq_ok h
  cases h
  cases no with
  | none => exact (by decide : "if_stmt" ∉ declaringLabels)
  | some no => exact (by decide : "if_stmt" ∉ declaringLabels)

lemma gives_readWhile (keyword : Token) : Gives (inner.readWhile keyword) IsBare := by
  intro c s d h
  unfold readWhile at h
  obtain ⟨_, _, -, h⟩ := of_bind_eq_ok h
  obtain ⟨condition, _, -, h⟩ := of_bind_eq_ok h
  obtain ⟨_, _, -, h⟩ := of_bind_eq_ok h
  obtain ⟨body, _, -, h⟩ := of_bind_eq_ok h
  cases h
  exact (by decide : "while_stmt" ∉ declaringLabels)

lemma gives_readPrint (keyword : Token) : Gives (inner.readPrint keyword) IsBare := by
  intro c s d h
  unfold readPrint at h
  obtain ⟨value, _, -, h⟩ := of_bind_eq_ok h
  obtain ⟨_, _, -, h⟩ := of_bind_eq_ok h
  cases h
  exact (by decide : "print_stmt" ∉ declaringLabels)

lemma gives_readReturn (keyword : Token) : Gives (inner.readReturn keyword) IsBare := by
  intro c s d h
  rw [readReturn_eq] at h
  obtain ⟨_, _, -, h⟩ := of_bind_eq_ok h
  obtain ⟨value, _, -, h⟩ := of_bind_eq_ok h
  obtain ⟨_, _, -, h⟩ := of_bind_eq_ok h
  cases h
  cases value with
  | none => exact (by decide : "return_stmt" ∉ declaringLabels)
  | some e => exact (by decide : "return_stmt" ∉ declaringLabels)

theorem body_of_readFor {keyword : Token} {c d : Cursor} {s : Stmt}
    (h : inner.readFor keyword c = .ok s d) :
    ∃ start condition step body before paren after, expect .forClosing before = .ok paren after ∧
      inner.statement true after = .ok body d ∧
      s = expandFor keyword start condition step body := by
  rw [readFor_eq] at h
  obtain ⟨_, _, -, h⟩ := of_bind_eq_ok h
  obtain ⟨start, _, -, h⟩ := of_bind_eq_ok h
  obtain ⟨_, _, -, h⟩ := of_bind_eq_ok h
  obtain ⟨condition, _, -, h⟩ := of_bind_eq_ok h
  obtain ⟨_, _, -, h⟩ := of_bind_eq_ok h
  obtain ⟨_, _, -, h⟩ := of_bind_eq_ok h
  obtain ⟨step, before, -, h⟩ := of_bind_eq_ok h
  obtain ⟨paren, after, hparen, h⟩ := of_bind_eq_ok h
  obtain ⟨body, _, hbody, h⟩ := of_bind_eq_ok h
  cases h
  exact ⟨start, condition, step, body, before, paren, after, hparen, hbody, rfl⟩

lemma gives_readFor (keyword : Token) : Gives (inner.readFor keyword) IsBare := by
  intro c s d h
  obtain ⟨start, condition, step, body, before, paren, after, -, -, rfl⟩ := body_of_readFor h
  exact isBare_expandFor keyword start condition step body

theorem gives_readStatement (inLoop : Bool) : Gives (inner.readStatement inLoop) IsBare := by
  refine .after fun t => ?_
  split
  · exact .after fun _ => gives_readBreak inLoop t
  · exact .after fun _ => gives_readFor t
  · exact .after fun _ => gives_readIf inLoop t
  · refine .after fun _ => .after fun body => ?_
    exact gives_pure (by decide : "block" ∉ declaringLabels)
  · exact .after fun _ => gives_readPrint t
  · exact .after fun _ => gives_readReturn t
  · exact .after fun _ => gives_readWhile t
  · exact gives_readExpressionStmt

lemma gives_statement (depth : Nat) (inLoop : Bool) :
    Gives ((nested depth).statement inLoop) IsBare := by
  cases depth with
  | zero => exact .after fun _ => gives_fail
  | succ depth => exact gives_readStatement inLoop

theorem blames_readOrphan {op : Token} {operand : Reader Expr} {c d : Cursor} {e : Expr}
    (hc : c.finish.kind = .finish) (hoperand : Sound operand fun _ _ _ => True)
    (h : readOrphan op operand c = .ok e d) : e = .invalid d.peek ∧ c.Blames d := by
  refine ⟨?_, (sound_readOrphan (P := fun _ _ _ => False) hoperand).blames_ok hc h
    fun _ _ hf => hf⟩
  obtain ⟨_, _, -, h⟩ := of_bind_eq_ok h
  obtain ⟨_, _, -, h⟩ := of_bind_eq_ok h
  cases h
  rfl

theorem blames_readDeclaration (h : inner.AreSound) {inLoop : Bool} {c e : Cursor} {s : Stmt}
    (hc : c.finish.kind = .finish) (hr : inner.readDeclaration inLoop c = .ok s e) :
    inner.readDeclared inLoop c = .ok s e ∨
      ∃ m d, inner.readDeclared inLoop c = .error m d ∧ s = .invalid d.peek ∧ c.Blames d := by
  unfold readDeclaration orElse at hr
  cases hm : inner.readDeclared inLoop c with
  | ok s' e' =>
    rw [hm] at hr
    exact .inl hr
  | error m d =>
    rw [hm] at hr
    cases hr
    exact .inr ⟨m, d, rfl, rfl, (sound_readDeclared h inLoop).blames_error hc hm⟩

end Readers

lemma Expr.not_holdsInvalid_of_isExpr {e : Expr} (h : e.tree.IsExpr) : e.holdsInvalid = false :=
  Bool.eq_false_iff.mpr (mt e.holdsPlaceholder_tree.mpr h.sound)

lemma Stmt.not_holdsInvalid_of_isStmt {s : Stmt} (h : s.tree.IsStmt) : s.holdsInvalid = false :=
  Bool.eq_false_iff.mpr (mt s.holdsPlaceholder_tree.mpr h.sound)

lemma anyInvalid_eq_false {body : List Stmt} (h : ∀ s ∈ body, s.tree.IsStmt) :
    anyInvalid body = false := by
  refine Bool.eq_false_iff.mpr (mt (placeholderBelow_stmtLeaves body).mpr ?_)
  rw [stmtLeaves_eq]
  exact not_placeholderBelow_trees (List.forall_mem_map.mpr fun s hs => (h s hs).sound)

/-- The program holds no placeholder, and its statements are of the shape that evaluation takes
apart. -/
structure Program.IsShaped (p : Program) : Prop where
  holdsInvalid : p.holdsInvalid = false
  isStmt : ∀ s ∈ p.body, s.tree.IsStmt
  labels : ∀ s ∈ p.body, ∀ l ∈ s.tree.labels, l ∉ placeholders

/-- The operators that a tree may hold are exactly those that evaluation knows. -/
structure Token.ListedIffKnown (op : Token) : Prop where
  binary : op.kind ∈ binaryOperators ↔
    ∀ a b : Value, ∀ name, a.binary op b ≠ .error (.unknownOperator name)
  unary : op.kind ∈ [.bang, .minus] ↔
    ∀ v : Value, ∀ name, v.unary op ≠ .error (.unknownUnaryOperator name)

namespace Readers

/-- What a `for` loop repeats is read behind its parentheses, and is no declaration. -/
def RepeatsBare (inner : Readers) : Prop :=
  ∀ keyword c s d, inner.readFor keyword c = .ok s d →
    ∃ start condition step body before paren after,
      Reader.expect .forClosing before = .ok paren after ∧
      inner.statement true after = .ok body d ∧
      s = expandFor keyword start condition step body ∧ body.tree.label ∉ declaringLabels

/-- Where a placeholder is built, and where something is given that holds one, an error has been
reported. -/
structure BlamesPlaceholders (inner : Readers) (c : Cursor) : Prop where
  orphan : ∀ op, ∀ operand ∈ [inner.equality, inner.comparison, inner.sum, inner.product],
    ∀ e d, readOrphan op operand c = .ok e d → e = .invalid d.peek ∧ c.Blames d
  recovered : ∀ inLoop s e, inner.readDeclaration inLoop c = .ok s e →
    inner.readDeclared inLoop c = .ok s e ∨
      ∃ m d, inner.readDeclared inLoop c = .error m d ∧ s = .invalid d.peek ∧ c.Blames d
  expression : ∀ e d, inner.expression c = .ok e d → e.holdsInvalid = true → c.Blames d
  declaration : ∀ inLoop s d, inner.declaration inLoop c = .ok s d → s.holdsInvalid = true →
    c.Blames d

lemma repeatsBare_nested (depth : Nat) : (nested depth).RepeatsBare := by
  intro keyword c s d h
  obtain ⟨start, condition, step, body, before, paren, after, hparen, hbody, hs⟩ :=
    body_of_readFor h
  exact ⟨start, condition, step, body, before, paren, after, hparen, hbody, hs,
    gives_statement depth true after body d hbody⟩

lemma blamesPlaceholders_nested (depth : Nat) {c : Cursor} (hc : c.finish.kind = .finish) :
    (nested depth).BlamesPlaceholders c := by
  have hsound := areSound_nested depth
  refine ⟨fun op operand hoperand e d h => blames_readOrphan hc ?_ h,
    fun inLoop s e => blames_readDeclaration hsound hc, fun e d h he => ?_,
    fun inLoop s d h hs => ?_⟩
  · simp only [List.mem_cons, List.not_mem_nil, or_false] at hoperand
    obtain rfl | rfl | rfl | rfl := hoperand
    · exact hsound.equality
    · exact hsound.comparison
    · exact hsound.sum
    · exact hsound.product
  · refine hsound.expression.blames_ok hc h fun ts rest hspells => ?_
    rw [Expr.not_holdsInvalid_of_isExpr hspells.shaped] at he
    cases he
  · refine (hsound.declaration inLoop).blames_ok hc h fun ts rest hspells => ?_
    rw [Stmt.not_holdsInvalid_of_isStmt hspells.shaped] at hs
    cases hs

end Readers

namespace Program

open Readers

lemma isShaped_ofSource {source : String} (h : (ofSource source).hasError = false) :
    (ofSource source).IsShaped where
  holdsInvalid := anyInvalid_eq_false (spells_body h).shaped
  isStmt := (spells_body h).shaped
  labels s hs l hl hp := ((spells_body h).shaped s hs).sound ⟨l, hl, hp⟩

/-- The trees of a program that is read without an error hold no placeholder, and every node has
the children that evaluation takes apart: branches and loop bodies are no declarations, operators
are those that have a value, and only a getter has no parameters. A placeholder is built only after
an error has been reported, and what holds one comes with an error. -/
theorem shaped_unless_reported :
    (∀ source, (ofSource source).hasError = false → (ofSource source).IsShaped) ∧
    (∀ depth, (nested depth).RepeatsBare) ∧
    (∀ op : Token, op.ListedIffKnown) ∧
    (∀ (f : Function) l, f.isGetter = true ↔ ∃ line depth head body,
      f.tree l = .node l line depth [.token head, .absent, .tree body]) ∧
    ∀ depth c, c.finish.kind = .finish → (nested depth).BlamesPlaceholders c := by
  refine ⟨fun source => isShaped_ofSource, repeatsBare_nested, fun op => ?_,
    fun f l => Function.isGetter_iff, fun depth c => blamesPlaceholders_nested depth⟩
  exact ⟨mem_binaryOperators_iff, mem_signs_iff⟩

theorem shaped_unless_reported_examples :
    let source := "class A < B \x7b get \x7b return -super.get; \x7d \x7d for (;;) break;"
    let word : Token := ⟨.forWord, "for", 1, 1⟩
    let equals : Token := ⟨.equalEqual, "==", 1, 1⟩
    let loop := Grammar.start (Scan.ofString "(;;) break;")
    let equation := Grammar.start (Scan.ofString "== 1;")
    let operand := Grammar.start (Scan.ofString "1;")
    (∀ s ∈ (ofSource source).body, s.tree.IsStmt) ∧
      (∃ s d, (nested 9).readFor word loop = .ok s d ∧ ∃ body after,
        (nested 9).statement true after = .ok body d ∧ body.tree.label ∉ declaringLabels) ∧
      (∃ e d, readOrphan equals (nested 9).equality operand = .ok e d ∧ operand.Blames d) ∧
      ∃ s d, (nested 9).declaration false equation = .ok s d ∧ s.holdsInvalid = true ∧
        equation.Blames d := by
  intro source word equals loop equation operand
  have hsound : (ofSource source).hasError = false := by decide +kernel
  obtain ⟨hshaped, hrepeats, -, -, hblames⟩ := shaped_unless_reported
  obtain ⟨s, d, hloop, -⟩ := Reader.exists_ok (r := (nested 9).readFor word)
    (c := loop) (p := fun _ => true) (by decide +kernel)
  obtain ⟨_, _, _, body, _, _, after, _, hbody, _, hlabel⟩ := hrepeats 9 word loop s d hloop
  obtain ⟨e, d', horphan, -⟩ := Reader.exists_ok
    (r := readOrphan equals (nested 9).equality) (c := operand)
    (p := fun _ => true) (by decide +kernel)
  obtain ⟨s', d'', hread, hs'⟩ := Reader.exists_ok (r := (nested 9).declaration false)
    (c := equation) (p := Stmt.holdsInvalid) (by decide +kernel)
  exact ⟨(hshaped source hsound).isStmt, ⟨s, d, hloop, body, after, hbody, hlabel⟩,
    ⟨e, d', horphan, ((hblames 9 operand rfl).orphan _ _ List.mem_cons_self e d' horphan).2⟩,
    s', d'', hread, hs', (hblames 9 equation rfl).declaration false s' d'' hread hs'⟩

end Program

end Lox
