import Lox.Proofs.Alike.Scopes
import Lox.Proofs.Alike.Words
import Lox.Proofs.Scope.Walk

namespace Lox

open Likeness (words)

def Diagnostic.placeless (d : Diagnostic) : Spot × Problem := (d.spot, d.problem)

lemma Token.SameWord.placeless {t t' : Token} (h : t.SameWord t') (problem : Problem) :
    (Diagnostic.atToken t' problem).placeless = (Diagnostic.atToken t problem).placeless := by
  simp only [Diagnostic.placeless, Diagnostic.atToken, Spot.ofToken, h.kind, h.lexeme]

structure Scopes.Matches (σ σ' : Scopes) : Prop where
  stack : AlikeStack .places Token.SameWord Variation.places.plain σ.stack σ'.stack
  reports : σ'.reports.map Diagnostic.placeless = σ.reports.map Diagnostic.placeless
  unused : List.Forall₂ Token.SameWord σ.unused σ'.unused

namespace Scopes.Matches

variable {σ σ' : Scopes} {t t' : Token}

lemma start : Scopes.start.Matches .start := ⟨.nil, rfl, .nil⟩

lemma report (h : σ.Matches σ') (ht : t.SameWord t') (problem : Problem) :
    (σ.report t problem).Matches (σ'.report t' problem) := by
  refine ⟨h.stack, ?_, h.unused⟩
  simp only [Scopes.report, List.map_append, h.reports, List.map_cons, List.map_nil,
    ht.placeless]

lemma depth? (h : σ.Matches σ') (name : String) : σ'.depth? name = σ.depth? name :=
  h.stack.findIdx? trivial (by rw [Variation.under_plain]; rfl)

lemma innermost? (h : σ.Matches σ') (name : String) :
    Option.Rel (Binding.Alike Token.SameWord) (σ.innermost? name) (σ'.innermost? name) := by
  unfold Scopes.innermost?
  have hstack := h.stack
  generalize σ.stack = ss at hstack ⊢
  generalize σ'.stack = ss' at hstack ⊢
  cases hstack with
  | nil => exact .none
  | cons hs _ => exact hs.find? name

lemma updateInnermost (h : σ.Matches σ') {f f' : Scope → Scope}
    (hf : ∀ {s s'}, Scope.Alike .places Token.SameWord Variation.places.same s s' →
      Scope.Alike .places Token.SameWord Variation.places.same (f s) (f' s')) :
    (σ.updateInnermost f).Matches (σ'.updateInnermost f') := by
  obtain ⟨hstack, hreports, hunused⟩ := h
  obtain ⟨stack, reports, unused⟩ := σ
  obtain ⟨stack', reports', unused'⟩ := σ'
  change AlikeStack _ _ _ stack stack' at hstack
  cases hstack with
  | nil => exact ⟨.nil, hreports, hunused⟩
  | cons hs houter => exact ⟨.cons (hf hs) houter, hreports, hunused⟩

lemma define (h : σ.Matches σ') (ht : t.SameWord t') : (σ.define t).Matches (σ'.define t') := by
  unfold Scopes.define
  rw [ht.lexeme]
  refine h.updateInnermost fun hs => hs.update trivial fun hb => ?_
  exact ⟨hb.token, rfl, hb.used, hb.tracked⟩

lemma declareImplicit (h : σ.Matches σ') (name : String) :
    (σ.declareImplicit name).Matches (σ'.declareImplicit name) :=
  h.updateInnermost fun hs => hs.put trivial ⟨.none, rfl, rfl, rfl⟩

lemma declare (h : σ.Matches σ') (ht : t.SameWord t') (tracked : Bool) :
    (σ.declare t tracked).Matches (σ'.declare t' tracked) := by
  have hinnermost := h.innermost? t.lexeme
  unfold Scopes.declare
  rw [ht.lexeme]
  generalize σ.innermost? t.lexeme = b at hinnermost ⊢
  generalize σ'.innermost? t.lexeme = b' at hinnermost ⊢
  cases hinnermost with
  | none => exact h.updateInnermost fun hs => hs.put trivial ⟨.some ht, rfl, rfl, rfl⟩
  | some _ =>
    exact (h.report ht .declaredTwice).updateInnermost
      fun hs => hs.put trivial ⟨.some ht, rfl, rfl, rfl⟩

lemma markUsed (h : σ.Matches σ') (depth : Nat) (name : String) :
    (σ.markUsed depth name).Matches (σ'.markUsed depth name) :=
  ⟨h.stack.modify fun hs => hs.update trivial fun hb => ⟨hb.token, hb.ready, rfl, hb.tracked⟩,
    h.reports, h.unused⟩

lemma enter (h : σ.Matches σ') : σ.enter.Matches σ'.enter :=
  ⟨.cons .nil h.stack, h.reports, h.unused⟩

lemma leave (h : σ.Matches σ') : σ.leave.Matches σ'.leave := by
  obtain ⟨hstack, hreports, hunused⟩ := h
  obtain ⟨stack, reports, unused⟩ := σ
  obtain ⟨stack', reports', unused'⟩ := σ'
  change AlikeStack _ _ _ stack stack' at hstack
  cases hstack with
  | nil => exact ⟨.nil, hreports, hunused⟩
  | cons hs houter => exact ⟨houter, hreports, List.rel_append hunused hs.unused⟩

end Scopes.Matches

namespace Resolver

def Matching {α : Type} (R : α → α → Prop) (walk walk' : Resolver α) : Prop :=
  ∀ σ σ', σ.Matches σ' →
    R (walk.result σ) (walk'.result σ') ∧ (walk.after σ).Matches (walk'.after σ')

abbrev Paired (walk walk' : Resolver Unit) : Prop := Matching (fun _ _ => True) walk walk'

variable {α β : Type} {R : α → α → Prop} {S : β → β → Prop} {walk walk' : Resolver α}
  {t t' : Token} {target target' : Reference}

lemma matching_pure {x x' : α} (h : R x x') : Matching R (pure x) (pure x') :=
  fun _ _ hσ => ⟨h, hσ⟩

lemma Matching.bind {next next' : α → Resolver β} (h : Matching R walk walk')
    (hnext : ∀ {x x'}, R x x' → Matching S (next x) (next' x')) :
    Matching S (walk >>= next) (walk' >>= next') := by
  intro σ σ' hσ
  obtain ⟨hresult, hafter⟩ := h σ σ' hσ
  exact hnext hresult _ _ hafter

lemma Matching.bind_pure {f f' : α → β} (h : Matching R walk walk')
    (hf : ∀ {x x'}, R x x' → S (f x) (f' x')) :
    Matching S (walk >>= fun x => pure (f x)) (walk' >>= fun x => pure (f' x)) :=
  h.bind fun hx => matching_pure (hf hx)

lemma paired_modify {f f' : Scopes → Scopes}
    (h : ∀ {σ σ'}, σ.Matches σ' → (f σ).Matches (f' σ')) : Paired (modify f) (modify f') :=
  fun _ _ hσ => ⟨trivial, h hσ⟩

lemma paired_report (ht : t.SameWord t') (problem : Problem) :
    Paired (report t problem) (report t' problem) :=
  paired_modify fun h => h.report ht problem

lemma Matching.inScope (h : Matching R walk walk') :
    Matching R (Resolver.inScope walk) (Resolver.inScope walk') :=
  (paired_modify Scopes.Matches.enter).bind fun _ =>
    h.bind fun hx => (paired_modify Scopes.Matches.leave).bind fun _ => matching_pure hx

lemma Matching.inMemberScopes (hasSuper : Bool) (h : Matching R walk walk') :
    Matching R (Resolver.inMemberScopes hasSuper walk)
      (Resolver.inMemberScopes hasSuper walk') := by
  have hmembers := ((paired_modify fun h => h.declareImplicit "this").bind fun _ => h).inScope
  cases hasSuper with
  | false => exact hmembers
  | true =>
    exact ((paired_modify fun h => h.declareImplicit "super").bind fun _ => hmembers).inScope

lemma matching_find (h : words.use () target target') (isRead : Bool) :
    Matching (words.use ()) (find target isRead) (find target' isRead) := by
  intro σ σ' hσ
  have hdepth := hσ.depth? target.name.lexeme
  unfold Resolver.result Resolver.after find
  simp only [bind, StateT.bind, get, getThe, MonadStateOf.get, StateT.get, pure]
  rw [h.1.lexeme, hdepth]
  cases σ.depth? target.name.lexeme with
  | none => exact ⟨h, hσ⟩
  | some depth =>
    cases isRead with
    | false => exact ⟨⟨h.1, rfl⟩, hσ⟩
    | true => exact ⟨⟨h.1, rfl⟩, hσ.markUsed depth _⟩

lemma matching_get : Matching Scopes.Matches (get : Resolver Scopes) get := fun _ _ hσ => ⟨hσ, hσ⟩

lemma matching_readName (h : words.use () target target') :
    Matching (words.use ()) (readName target) (readName target') := by
  have hfind := matching_find h true
  refine matching_get.bind fun {s s'} hs => ?_
  have hinnermost := hs.innermost? target.name.lexeme
  rw [h.1.lexeme]
  generalize s.innermost? target.name.lexeme = b at hinnermost ⊢
  generalize s'.innermost? target.name.lexeme = b' at hinnermost ⊢
  cases hinnermost with
  | none => exact hfind
  | some hb =>
    dsimp only
    rw [hb.ready]
    split
    · exact (paired_report h.1 .readInInitializer).bind fun _ => hfind
    · exact hfind

lemma matching_readThis (around : Surroundings) (h : words.use () target target') :
    Matching (words.use ()) (readThis around target) (readThis around target') := by
  unfold readThis
  split
  · exact (paired_report h.1 .thisOutsideClass).bind fun _ => matching_pure h
  · exact matching_find h true

lemma matching_readSuper (around : Surroundings) (h : words.use () target target') :
    Matching (words.use ()) (readSuper around target) (readSuper around target') := by
  unfold readSuper
  split
  · exact (paired_report h.1 .superOutsideClass).bind fun _ => matching_pure h
  · exact (paired_report h.1 .superWithoutSuperclass).bind fun _ => matching_pure h
  · exact matching_find h true

lemma paired_declareReady (ht : t.SameWord t') (tracked : Bool) :
    Paired (declareReady t tracked) (declareReady t' tracked) :=
  paired_modify fun h => (h.declare ht tracked).define ht

lemma paired_declareParams {ps ps' : List Token} (h : List.Forall₂ Token.SameWord ps ps') :
    Paired (declareParams ps) (declareParams ps') := by
  induction h with
  | nil => exact matching_pure trivial
  | cons ht _ ih => exact (paired_declareReady ht false).bind fun _ => ih

lemma paired_checkReturn (around : Surroundings) (ht : t.SameWord t') (hasValue : Bool) :
    Paired (checkReturn around t hasValue) (checkReturn around t' hasValue) := by
  have hreport := paired_report ht
  unfold checkReturn
  dsimp only
  split <;> split
  · exact (hreport _).bind fun _ => hreport _
  · exact hreport _
  · exact (hreport _).bind fun _ => matching_pure trivial
  · exact matching_pure trivial

lemma matching_resolveSuperclass (ht : t.SameWord t') {parent parent' : Option Reference}
    (h : Option.Rel (words.use ()) parent parent') :
    Matching (Option.Rel (words.use ())) (resolveSuperclass t parent)
      (resolveSuperclass t' parent') := by
  cases h with
  | none => exact matching_pure .none
  | @some p p' hp =>
    have hread :
        Matching (Option.Rel (words.use ())) (some <$> readName p) (some <$> readName p') :=
      (matching_readName hp).bind_pure .some
    unfold resolveSuperclass
    dsimp only
    rw [hp.1.lexeme, ht.lexeme]
    split
    · exact (paired_report hp.1 .inheritsItself).bind fun _ => hread
    · exact hread

lemma memberRoutine_of_alike {f f' : Function} (h : f.Alike words () f') (isStatic : Bool) :
    memberRoutine isStatic f' = memberRoutine isStatic f := by
  have hname : f'.name = f.name := h.head.lexeme
  have hgetter : f'.isGetter = f.isGetter := by
    cases h with
    | mk _ _ hp _ => cases hp <;> rfl
  rw [memberRoutine_eq, memberRoutine_eq]
  unfold Function.isInitializer
  rw [hname, hgetter]

lemma matching_member {around : Surroundings} {f f' : Function} (h : f.Alike words () f')
    (isStatic : Bool) (hf : ∀ routine, Matching (Function.Alike words ())
      (resolveFunction around routine f) (resolveFunction around routine f')) :
    Matching (Function.Alike words ()) (resolveFunction around (memberRoutine isStatic f) f)
      (resolveFunction around (memberRoutine isStatic f') f') := by
  rw [memberRoutine_of_alike h isStatic]
  exact hf _

lemma forall₂_names {params params' : Option Params}
    (h : Option.Rel (fun p p' => List.Forall₂ Token.SameWord p.names p'.names) params params') :
    List.Forall₂ Token.SameWord ((params.map Params.names).getD [])
      ((params'.map Params.names).getD []) := by
  cases h with
  | none => exact .nil
  | some h => exact h

end Resolver

open Resolver

mutual

lemma Expr.Alike.matching (around : Surroundings) : (e e' : Expr) → e.Alike words () e' →
    Matching (Expr.Alike words ()) (resolveExpr around e) (resolveExpr around e')
  | .literal _ _, _, .literal ht => matching_pure (.literal ht)
  | .ref _, _, .ref hr => (matching_readName hr).bind_pure .ref
  | .assign _ value _, _, .assign hr hv =>
    (hv.matching around value _).bind fun hv => (matching_find hr false).bind_pure (.assign · hv)
  | .get object _, _, .get ho ht => (ho.matching around object _).bind_pure (.get · ht)
  | .set object _ value _, _, .set ho ht hv =>
    (ho.matching around object _).bind fun ho =>
      (hv.matching around value _).bind_pure (.set ho ht ·)
  | .conditional c _ yes no, _, .conditional hc ht hy hn =>
    (hc.matching around c _).bind fun hc => (hy.matching around yes _).bind fun hy =>
      (hn.matching around no _).bind_pure (.conditional hc ht hy ·)
  | .lambda f, _, .lambda hf => (hf.matching around .ordinary f _).bind_pure .lambda
  | .comma l _ r, _, .comma hl ht hr =>
    (hl.matching around l _).bind fun hl => (hr.matching around r _).bind_pure (.comma hl ht ·)
  | .binary l _ r, _, .binary hl ht hr =>
    (hl.matching around l _).bind fun hl => (hr.matching around r _).bind_pure (.binary hl ht ·)
  | .logical l _ r, _, .logical hl ht hr =>
    (hl.matching around l _).bind fun hl => (hr.matching around r _).bind_pure (.logical hl ht ·)
  | .unary _ e, _, .unary ht he => (he.matching around e _).bind_pure (.unary ht ·)
  | .call callee _ es, _, .call hc ht hes =>
    (hc.matching around callee _).bind fun hc =>
      (hes.matching around es _).bind_pure (.call hc ht ·)
  | .this _, _, .this hr => (matching_readThis around hr).bind_pure .this
  | .super _ _, _, .super hr ht => (matching_readSuper around hr).bind_pure (.super · ht)
  | .grouping _ e, _, .grouping ht he => (he.matching around e _).bind_pure (.grouping ht ·)
  | .list _ es, _, .list ht hes => (hes.matching around es _).bind_pure (.list ht ·)
  | .invalid _, _, .invalid ht => matching_pure (.invalid ht)
termination_by structural x => x

lemma AlikeExprs.matching (around : Surroundings) : (es es' : List Expr) →
    AlikeExprs words () es es' →
    Matching (AlikeExprs words ()) (resolveExprs around es) (resolveExprs around es')
  | [], _, .nil => matching_pure .nil
  | e :: es, _, .cons he hes =>
    (he.matching around e _).bind fun he => (hes.matching around es _).bind_pure (.cons he ·)
termination_by structural x => x

lemma Stmt.Alike.matching (around : Surroundings) : (s s' : Stmt) → s.Alike words () s' →
    Matching (Stmt.Alike words ()) (resolveStmt around s) (resolveStmt around s')
  | .expression _ e, _, .expression he => (he.matching around e _).bind_pure .expression
  | .print _ e, _, .print ht he => (he.matching around e _).bind_pure (.print ht ·)
  | .var _ none, _, .declare ht => (paired_declareReady ht true).bind_pure fun _ => .declare ht
  | .var _ (some e), _, .define ht he =>
    (paired_modify fun h => h.declare ht true).bind fun _ => (he.matching around e _).bind fun he =>
      (paired_modify fun h => h.define ht).bind_pure fun _ => .define ht he
  | .block _ body, _, .block _ hb =>
    (hb.matching around body _).inScope.bind_pure (.block trivial ·)
  | .ifElse _ c yes none, _, .ifOnly ht hc hy =>
    (hc.matching around c _).bind fun hc => (hy.matching around yes _).bind_pure (.ifOnly ht hc ·)
  | .ifElse _ c yes (some no), _, .ifElse ht hc hy hn =>
    (hc.matching around c _).bind fun hc => (hy.matching around yes _).bind fun hy =>
      (hn.matching around no _).bind_pure (.ifElse ht hc hy ·)
  | .whileLoop _ c body, _, .whileLoop ht hc hb =>
    (hc.matching around c _).bind fun hc =>
      (hb.matching around body _).bind_pure (.whileLoop ht hc ·)
  | .breakLoop _, _, .breakLoop ht => matching_pure (.breakLoop ht)
  | .returnValue _ none, _, .returnNothing ht =>
    (paired_checkReturn around ht false).bind_pure fun _ => .returnNothing ht
  | .returnValue _ (some e), _, .returnValue ht he =>
    (paired_checkReturn around ht true).bind fun _ =>
      (he.matching around e _).bind_pure (.returnValue ht ·)
  | .function f, _, .function ht hf =>
    (paired_declareReady ht true).bind fun _ =>
      (hf.matching around .ordinary f _).bind_pure fun hf => .function hf.head hf
  | .classDecl _ _ _ ms ss, _, .classDecl ht hp hms hss => by
    refine (paired_declareReady ht true).bind fun _ =>
      (matching_resolveSuperclass ht hp).bind fun {parent parent'} hparent => ?_
    have hsome : parent'.isSome = parent.isSome := by cases hparent <;> rfl
    rw [hsome]
    let R (lists lists' : List Function × List Function) : Prop :=
      AlikeMembers words () lists.1 lists'.1 ∧ AlikeMembers words () lists.2 lists'.2
    have hpair {methods methods' statics statics' : List Function}
        (h : AlikeMembers words () methods methods') (h' : AlikeMembers words () statics statics') :
        Matching R (pure (methods, statics)) (pure (methods', statics')) := matching_pure ⟨h, h'⟩
    let inside : Surroundings :=
      { around with membership := if parent.isSome then .subclass else .rootClass }
    have hmembers := (hms.matching inside false ms _).bind fun hms' =>
      (hss.matching inside true ss _).bind fun hss' => hpair hms' hss'
    exact (hmembers.inMemberScopes parent.isSome).bind_pure fun hlists =>
      .classDecl ht hparent hlists.1 hlists.2
  | .invalid _, _, .invalid ht => matching_pure (.invalid ht)
termination_by structural x => x

lemma AlikeStmts.matching (around : Surroundings) : (body body' : List Stmt) →
    AlikeStmts words () body body' →
    Matching (AlikeStmts words ()) (resolveStmts around body) (resolveStmts around body')
  | [], _, .nil => matching_pure .nil
  | s :: body, _, .cons hs hb =>
    (hs.matching around s _).bind fun hs => (hb.matching around body _).bind_pure (.cons hs ·)
termination_by structural x => x

lemma Function.Alike.matching (around : Surroundings) (routine : Routine) :
    (f f' : Function) → f.Alike words () f' →
    Matching (Function.Alike words ()) (resolveFunction around routine f)
      (resolveFunction around routine f')
  | .mk _ _ _ body, _, .mk ht _ hp hb =>
    ((paired_declareParams (forall₂_names hp)).bind fun _ =>
      (hb.matching _ body _).bind_pure (.mk ht trivial hp ·)).inScope
termination_by structural x => x

lemma AlikeMembers.matching (around : Surroundings) (isStatic : Bool) :
    (ms ms' : List Function) → AlikeMembers words () ms ms' →
    Matching (AlikeMembers words ()) (resolveMembers around isStatic ms)
      (resolveMembers around isStatic ms')
  | [], _, .nil => matching_pure .nil
  | f :: ms, _, .cons hf hms =>
    (matching_member hf isStatic fun routine => hf.matching around routine f _).bind fun hf' =>
      (hms.matching around isStatic ms _).bind_pure (.cons hf' ·)
termination_by structural x => x

end

end Lox
