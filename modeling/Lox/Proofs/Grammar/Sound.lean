import Lox.Grammar
import Lox.Proofs.Grammar.Reading

namespace Lox

namespace Readers

open Reader

def ReadsTernary (e : Expr) (ts rest : List Token) : Prop :=
  Spells (.expression .ternary e) ts ∧ (e.takesMark = true → following rest ≠ .question)

def ReadsAssignment (e : Expr) (ts rest : List Token) : Prop :=
  Spells (.expression .assignment e) ts ∧ (e.leavesMark = false → following rest ≠ .question)

def ReadsStatement (inLoop : Bool) (s : Stmt) (ts rest : List Token) : Prop :=
  ∃ o, Spells (.statement inLoop o s) ts ∧ (o = true → following rest ≠ .elseWord)

structure AreSound (inner : Readers) : Prop where
  expression : Sound inner.expression fun e ts _ => Spells (.expression .comma e) ts
  ternary : Sound inner.ternary ReadsTernary
  equality : Sound inner.equality fun _ _ _ => True
  comparison : Sound inner.comparison fun _ _ _ => True
  sum : Sound inner.sum fun _ _ _ => True
  product : Sound inner.product fun _ _ _ => True
  sign : Sound inner.sign fun e ts _ => Spells (.expression .sign e) ts
  statement : ∀ b, Sound (inner.statement b) (ReadsStatement b)
  declaration : ∀ b, Sound (inner.declaration b) fun s ts _ => Spells (.declaration b s) ts

variable {inner : Readers}

lemma sound_readBlock (h : inner.AreSound) (b : Bool) :
    Sound (inner.readBlock b) fun body ts _ =>
      ∃ us closing, ts = us ++ [closing] ∧ closing.kind = .rightBrace ∧
        Spells (.declarations b body) us := by
  refine (Sound.bind (sound_collect (R := fun body ts => Spells (.declarations b body) ts)
    .noDeclarations (fun _ _ _ _ => .declarations) (fun _ _ hs => hs.weight_le)
    (h.declaration b)) fun body => Sound.bind sound_expect fun _ => sound_pure).mono ?_
  rintro _ _ rest ⟨body, us, _, rfl, ⟨hbody, -⟩, closing, _, _, rfl, ⟨rfl, hk⟩, rfl, rfl⟩
  exact ⟨us, closing, rfl, hk, hbody⟩

lemma sound_readParams (paren : Token) :
    Sound (readParams paren) fun ps ts _ =>
      paren.kind = .leftParen → Spells (.parameters ps) (paren :: ts) := by
  rw [readParams_eq]
  refine (Sound.bind sound_sees fun b => Sound.bind (P := fun ps ts _ => ps = [] ∧ ts = [] ∨
    ps.length ≤ maxArguments ∧ Spells (.names ps) ts) (sound_ite (fun _ => ?_) fun _ => ?_)
    fun names => Sound.bind sound_expect fun _ => sound_pure).mono ?_
  · exact sound_pure.mono fun _ _ _ hn => .inl hn
  · refine (sound_commaList (S := fun p ts => ts = [p] ∧ p.kind = .identifier)
      (R := fun ps ts => Spells (.names ps) ts) (by simp [Problem.severity]) ?_ ?_
      sound_expect).mono fun _ _ _ hn => .inr ⟨hn.2 rfl, hn.1⟩
    · rintro p _ ⟨rfl, hk⟩
      exact .lastName hk
    · rintro p ps comma _ us hc ⟨rfl, hk⟩ hps
      exact .moreNames hk hc hps
  · rintro _ _ rest ⟨_, _, _, rfl, ⟨rfl, -⟩, names, us, _, rfl, hn, closing, _, _, rfl, ⟨rfl, hk⟩,
      rfl, rfl⟩ hp
    obtain ⟨rfl, rfl⟩ | ⟨hle, hn⟩ := hn
    · exact .noParameters hp hk
    · exact .parameters hp hk hle hn

lemma sound_readBody (h : inner.AreSound) (brace head : Token) (params : Option Params) :
    Sound (inner.readBody brace head params) fun f ts _ => ∃ line body,
      f = .mk head params line body ∧
        (brace.kind = .leftBrace → Spells (.rest none line body) (brace :: ts)) := by
  refine (Sound.bind (sound_readBlock h false) fun body => sound_pure).mono ?_
  rintro _ _ rest ⟨body, _, _, rfl, ⟨us, closing, rfl, hk, hbody⟩, rfl, rfl⟩
  exact ⟨brace.line, body, rfl, fun hb => by simpa using Spells.getter hb hk hbody⟩

lemma sound_readLambda (h : inner.AreSound) (keyword : Token) :
    Sound (inner.readLambda keyword) fun e ts rest =>
      keyword.kind = .funWord → ReadsTernary e (keyword :: ts) rest := by
  refine (Sound.bind sound_expect fun paren => Sound.bind (sound_readParams paren) fun params =>
    Sound.bind sound_expect fun brace => Sound.bind (sound_readBody h brace keyword (some params))
    fun f => sound_pure).mono ?_
  rintro _ _ rest ⟨paren, _, _, rfl, ⟨rfl, hp⟩, params, us, _, rfl, hps, brace, _, _, rfl,
    ⟨rfl, hb⟩, _, vs, _, rfl, ⟨line, body, rfl, hbody⟩, rfl, rfl⟩ hk
  refine ⟨?_, by simp [Expr.takesMark]⟩
  simpa using Spells.lambda hk (.rest (hps hp) (hbody hb))

lemma sound_readFunction (h : inner.AreSound) (what : Declared) :
    Sound (inner.readFunction what) fun f ts _ => ∃ name us params line body, ts = name :: us ∧
      name.kind = .identifier ∧ f = .mk name params line body ∧
      Spells (.rest params line body) us ∧ (what = .function → params.isSome) := by
  rw [readFunction_eq]
  refine (Sound.bind sound_expect fun name => Sound.bind sound_sees fun b =>
    Sound.bind (P := fun params ts _ => (what = .function → params.isSome) ∧
      ∀ line body us, Spells (.rest none line body) us → Spells (.rest params line body) (ts ++ us))
      (sound_ite (fun hb => ?_) fun hb => ?_)
    fun params => Sound.bind sound_expect fun brace => sound_readBody h brace name params).mono ?_
  · refine (Sound.bind sound_expect fun paren => (sound_readParams paren).map).mono ?_
    rintro _ _ rest ⟨paren, _, us, rfl, ⟨rfl, hp⟩, params, rfl, hps⟩
    exact ⟨fun _ => rfl, fun line body vs hbody => .rest (hps hp) hbody⟩
  · refine sound_pure.mono ?_
    rintro _ _ rest ⟨rfl, rfl⟩
    refine ⟨fun hw => ?_, fun line body us hbody => hbody⟩
    simp [hw] at hb
  · rintro _ _ rest ⟨name, _, _, rfl, ⟨rfl, hn⟩, _, _, _, rfl, ⟨rfl, -⟩, params, us, _, rfl,
      ⟨hsome, hps⟩, brace, _, vs, rfl, ⟨rfl, hb⟩, line, body, rfl, hbody⟩
    exact ⟨name, _, params, line, body, rfl, hn, rfl, hps _ _ _ (hbody hb), hsome⟩

lemma sound_arguments (h : inner.AreSound) {tooMany : Option Problem}
    (hp : ∀ p ∈ tooMany, p.severity = .error) :
    Sound (commaList tooMany inner.ternary) fun es ts _ =>
      Spells (.expressions es) ts ∧ (tooMany.isSome → es.length ≤ maxArguments) :=
  sound_commaList (S := fun e ts => Spells (.expression .ternary e) ts)
    (R := fun es ts => Spells (.expressions es) ts) hp (fun _ _ => .lastExpression)
    (fun _ _ _ _ _ => .moreExpressions) (h.ternary.mono fun _ _ _ he => he.1)

lemma sound_readArguments (h : inner.AreSound) :
    Sound inner.readArguments fun es ts _ =>
      Spells (.items es) ts ∧ es.length ≤ maxArguments := by
  refine (Sound.bind sound_sees fun b => sound_ite (P := fun es ts _ => Spells (.items es) ts ∧
    es.length ≤ maxArguments) (fun _ => ?_) fun _ => ?_).mono ?_
  · refine sound_pure.mono ?_
    rintro _ _ _ ⟨rfl, rfl⟩
    exact ⟨.noItems, Nat.zero_le _⟩
  · refine (sound_arguments h (by simp [Problem.severity])).mono ?_
    rintro es ts _ ⟨hes, hle⟩
    exact ⟨.items hes, hle rfl⟩
  · rintro es _ rest ⟨_, _, ts, rfl, ⟨rfl, -⟩, hes⟩
    exact hes

lemma sound_readList (h : inner.AreSound) (bracket : Token) :
    Sound (inner.readList bracket) fun e ts _ =>
      bracket.kind = .leftBracket → Spells (.expression .primary e) (bracket :: ts) := by
  rw [readList_eq]
  refine (Sound.bind sound_sees fun b => Sound.bind (P := fun es ts _ => Spells (.items es) ts)
    (sound_ite (fun _ => ?_) fun _ => ?_) fun es => Sound.bind sound_expect fun _ =>
    sound_pure).mono ?_
  · refine sound_pure.mono ?_
    rintro _ _ _ ⟨rfl, rfl⟩
    exact .noItems
  · exact (sound_arguments h (by simp)).mono fun _ _ _ hes => .items hes.1
  · rintro _ _ rest ⟨_, _, _, rfl, ⟨rfl, -⟩, es, us, _, rfl, hes, closing, _, _, rfl, ⟨rfl, hk⟩,
      rfl, rfl⟩ hb
    exact .list hb hk hes

lemma sound_readGrouping (h : inner.AreSound) (paren : Token) :
    Sound (inner.readGrouping paren) fun e ts _ =>
      paren.kind = .leftParen → Spells (.expression .primary e) (paren :: ts) := by
  refine (Sound.bind h.expression fun e => Sound.bind sound_expect fun _ => sound_pure).mono ?_
  rintro _ _ rest ⟨e, us, _, rfl, he, closing, _, _, rfl, ⟨rfl, hk⟩, rfl, rfl⟩ hp
  exact .grouping hp hk he

lemma sound_readSuper (keyword : Token) :
    Sound (readSuper keyword) fun e ts _ =>
      keyword.kind = .superWord → Spells (.expression .primary e) (keyword :: ts) := by
  refine (Sound.bind sound_expect fun dot => Sound.bind sound_expect fun method =>
    sound_pure).mono ?_
  rintro _ _ rest ⟨dot, _, _, rfl, ⟨rfl, hd⟩, method, _, _, rfl, ⟨rfl, hm⟩, rfl, rfl⟩ hk
  exact .super hk hd hm

lemma sound_readOrphan {op : Token} {operand : Reader Expr}
    (h : Sound operand fun _ _ _ => True) {P : Expr → List Token → List Token → Prop} :
    Sound (readOrphan op operand) P := by
  refine (Sound.bind (sound_report rfl) fun _ => Sound.bind h fun _ =>
    sound_look (P := fun _ _ _ => True) fun t => sound_pure.mono fun _ _ _ _ => trivial).mono ?_
  rintro _ _ _ ⟨_, _, _, _, hf, _⟩
  exact hf.elim

lemma kind_ne_finish_of_literal {t : Token} {value : Literal} (h : t.literal? = some value) :
    t.kind ≠ .finish := by
  intro hk
  simp [Token.literal?, hk] at h

lemma sound_readPrimary (h : inner.AreSound) :
    Sound inner.readPrimary fun e ts _ => Spells (.expression .primary e) ts := by
  refine sound_look fun t => ?_
  cases hl : t.literal? with
  | some value =>
    refine sound_skip (kind_ne_finish_of_literal hl) sound_pure ?_
    rintro _ _ _ ⟨rfl, rfl⟩
    exact .literal hl
  | none =>
    dsimp only
    split
    case h_1 hk =>
      refine sound_skip (by simp [hk]) sound_pure ?_
      rintro _ _ _ ⟨rfl, rfl⟩
      exact .this hk
    case h_2 hk =>
      refine sound_skip (by simp [hk]) sound_pure ?_
      rintro _ _ _ ⟨rfl, rfl⟩
      exact .ref hk
    case h_3 hk => exact sound_skip (by simp [hk]) (sound_readSuper t) fun _ _ _ hs => hs hk
    case h_4 hk => exact sound_skip (by simp [hk]) (sound_readGrouping h t) fun _ _ _ hs => hs hk
    case h_5 hk => exact sound_skip (by simp [hk]) (sound_readList h t) fun _ _ _ hs => hs hk
    case h_6 hk | h_7 hk =>
      exact sound_skip (by simp [hk]) (sound_readOrphan h.equality) fun _ _ _ hs => hs
    case h_8 hk | h_9 hk | h_10 hk | h_11 hk =>
      exact sound_skip (by simp [hk]) (sound_readOrphan h.comparison) fun _ _ _ hs => hs
    case h_12 hk => exact sound_skip (by simp [hk]) (sound_readOrphan h.sum) fun _ _ _ hs => hs
    case h_13 hk | h_14 hk | h_15 hk =>
      exact sound_skip (by simp [hk]) (sound_readOrphan h.product) fun _ _ _ hs => hs
    case h_16 => exact sound_fail rfl

lemma sound_readSuffixes (h : inner.AreSound) (n : Nat) (e : Expr) :
    Sound (inner.readSuffixes n e) fun e' ts _ => ∀ us, Spells (.expression .call e) us →
      Spells (.expression .call e') (us ++ ts) := by
  induction n generalizing e with
  | zero =>
    refine sound_pure.mono ?_
    rintro _ _ _ ⟨rfl, rfl⟩ us he
    simpa using he
  | succ n ih =>
    refine SoundOn.mono (Sound.accept (by simp) (fun opening =>
      Sound.bind (sound_readArguments h) fun es => Sound.bind sound_expect fun closing =>
        ih (.call e closing es))
      (Sound.accept (by simp) (fun dot => Sound.bind sound_expect fun name => ih (.get e name))
        sound_pure)) ?_
    rintro e' _ rest (⟨opening, _, rfl, ho, es, ts, _, rfl, ⟨hes, hle⟩, closing, _, us, rfl,
      ⟨rfl, hc⟩, he'⟩ | ⟨⟨dot, _, rfl, hd, name, _, ts, rfl, ⟨rfl, hn⟩, he'⟩ |
      ⟨⟨rfl, rfl⟩, -⟩, -⟩) vs he
    · simpa using he' _ (.call (by simpa using ho) hc hle he hes)
    · simpa using he' _ (.get (by simpa using hd) hn he)
    · simpa using he

lemma sound_readCall (h : inner.AreSound) :
    Sound inner.readCall fun e ts _ => Spells (.expression .call e) ts := by
  refine (Sound.bind (sound_readPrimary h) fun e => Sound.bind sound_seesOneOf
    (Q := fun _ e' ts _ => ∀ us, Spells (.expression .call e) us →
      Spells (.expression .call e') (us ++ ts)) fun b => ?_).mono ?_
  · cases b
    · refine sound_pure.mono ?_
      rintro _ _ _ ⟨rfl, rfl⟩ us he
      simpa using he
    · exact sound_get fun d _ => (sound_readSuffixes h d.rest.length e).on
  · rintro e' _ rest ⟨e, us, _, rfl, he, _, _, vs, rfl, rfl, he'⟩
    exact he' us (.pass (by simp) he)

lemma sound_readSign (h : inner.AreSound) :
    Sound inner.readSign fun e ts _ => Spells (.expression .sign e) ts := by
  refine SoundOn.mono (Sound.accept (by simp) (fun op => Sound.bind h.sign fun e => sound_pure)
    (sound_readCall h)) ?_
  rintro e _ rest (⟨op, _, rfl, hop, e, ts, _, rfl, he, rfl, rfl⟩ | ⟨he, -⟩)
  · simpa using Spells.sign hop he
  · exact .pass (by simp) he

theorem sound_tier (level : Level) {operand : Reader Expr} (hlevel : level ≠ .primary)
    (hops : .finish ∉ level.ops)
    (h : Sound operand fun e ts _ => Spells (.expression level.next e) ts) :
    Sound (chain level.ops level.join operand) fun e ts _ => Spells (.expression level e) ts :=
  sound_chain (R := fun e ts => Spells (.expression level e) ts) hops
    (fun _ _ => .pass hlevel) (fun _ _ _ _ _ hop hl hr => .join hop hl hr) h

lemma sound_readProduct (h : inner.AreSound) :
    Sound inner.readProduct fun e ts _ => Spells (.expression .product e) ts :=
  sound_tier .product (by simp) (by simp [Level.ops]) (sound_readSign h)

lemma sound_readSum (h : inner.AreSound) :
    Sound inner.readSum fun e ts _ => Spells (.expression .sum e) ts :=
  sound_tier .sum (by simp) (by simp [Level.ops]) (sound_readProduct h)

lemma sound_readComparison (h : inner.AreSound) :
    Sound inner.readComparison fun e ts _ => Spells (.expression .comparison e) ts :=
  sound_tier .comparison (by simp) (by simp [Level.ops]) (sound_readSum h)

lemma sound_readEquality (h : inner.AreSound) :
    Sound inner.readEquality fun e ts _ => Spells (.expression .equality e) ts :=
  sound_tier .equality (by simp) (by simp [Level.ops]) (sound_readComparison h)

lemma sound_readAnd (h : inner.AreSound) :
    Sound inner.readAnd fun e ts _ => Spells (.expression .and e) ts :=
  sound_tier .and (by simp) (by simp [Level.ops]) (sound_readEquality h)

lemma sound_readOr (h : inner.AreSound) :
    Sound inner.readOr fun e ts _ => Spells (.expression .or e) ts :=
  sound_tier .or (by simp) (by simp [Level.ops]) (sound_readAnd h)

lemma sound_finishAssignment (h : inner.AreSound) (target : Expr) (equals : Token) :
    Sound (inner.finishAssignment target equals) fun e us rest =>
      equals.kind = .equal → ∀ ts, Spells (.expression .or target) ts →
        ReadsAssignment e (ts ++ equals :: us) rest := by
  refine SoundOn.mono (Sound.bind h.ternary fun value => ?_)
    (P := fun e us rest => ∃ value vs ws, us = vs ++ ws ∧
      ReadsTernary value vs (ws ++ rest) ∧ ws = [] ∧
      ((∃ name, target = .ref name ∧ e = .assign name value equals.line) ∨
        ∃ object name, target = .get object name ∧ e = .set object name value equals.line)) ?_
  · cases target
    case ref name => exact sound_pure.mono fun _ _ _ he => ⟨he.2, .inl ⟨name, rfl, he.1⟩⟩
    case get object name =>
      exact sound_pure.mono fun _ _ _ he => ⟨he.2, .inr ⟨object, name, rfl, he.1⟩⟩
    all_goals
      refine (Sound.bind (sound_report rfl) fun _ => sound_pure).mono ?_
      rintro _ _ _ ⟨_, _, _, _, hf, _⟩
      exact hf.elim
  · rintro e _ rest ⟨value, us, _, rfl, ⟨hv, hmark⟩, rfl, he⟩ hk ts ht
    simp only [List.append_nil, List.nil_append] at hmark ⊢
    obtain ⟨name, rfl, rfl⟩ | ⟨object, name, rfl, rfl⟩ := he
    · exact ⟨.assign hk ht hv, fun hl => hmark (by simpa [Expr.leavesMark] using hl)⟩
    · exact ⟨.set hk ht hv, fun hl => hmark (by simpa [Expr.leavesMark] using hl)⟩

lemma sound_readAssignment (h : inner.AreSound) :
    Sound inner.readAssignment ReadsAssignment := by
  refine SoundOn.mono (Sound.bind (sound_readOr h) fun target => Sound.accept (by simp)
    (fun equals => sound_finishAssignment h target equals) sound_pure) ?_
  rintro e _ rest ⟨target, ts, _, rfl, ht, ⟨equals, us, rfl, hk, he⟩ | ⟨⟨rfl, rfl⟩, -⟩⟩
  · exact he (by simpa using hk) ts ht
  · refine ⟨by simpa using .pass (by simp) ht, fun hl => ?_⟩
    simp [ht.leavesMark] at hl

lemma sound_finishConditional (h : inner.AreSound) (condition : Expr) (mark : Token) :
    Sound (inner.finishConditional condition mark) fun e us rest =>
      mark.kind = .question → condition.leavesMark = true → ∀ ts,
        Spells (.expression .assignment condition) ts → ReadsTernary e (ts ++ mark :: us) rest := by
  refine (Sound.bind h.expression fun yes => Sound.bind sound_expect fun colon =>
    Sound.bind h.ternary fun no => sound_pure).mono ?_
  rintro _ _ rest ⟨yes, us, _, rfl, hyes, colon, _, _, rfl, ⟨rfl, hc⟩, no, vs, _, rfl, ⟨hno, hmark⟩,
    rfl, rfl⟩ hm hl ts ht
  refine ⟨by simpa using .conditional hm hc hl ht hyes hno, fun hno' => ?_⟩
  exact hmark (by simpa [Expr.takesMark] using hno')

lemma sound_readTernary (h : inner.AreSound) : Sound inner.readTernary ReadsTernary := by
  refine SoundOn.mono (Sound.accept (by simp) (fun keyword => sound_readLambda h keyword)
    (Sound.bind (sound_readAssignment h) fun e => Sound.accept (by simp)
      (fun mark => sound_finishConditional h e mark) sound_pure)) ?_
  rintro e _ rest (⟨keyword, us, rfl, hk, he⟩ | ⟨⟨c, ts, _, rfl, ⟨hc, hl⟩,
    ⟨mark, us, rfl, hm, he⟩ | ⟨⟨rfl, rfl⟩, hr⟩⟩, -⟩)
  · exact he (by simpa using hk)
  · have hm : mark.kind = .question := by simpa using hm
    refine he hm ?_ ts hc
    exact Bool.of_not_eq_false fun hf => hl hf (by simpa using hm)
  · exact ⟨by simpa using .pass (by simp) hc, fun _ => by simpa using hr⟩

lemma sound_readExpression (h : inner.AreSound) :
    Sound inner.readExpression fun e ts _ => Spells (.expression .comma e) ts :=
  sound_tier .comma (by simp) (by simp [Level.ops]) ((sound_readTernary h).mono fun _ _ _ he => he.1)

lemma sound_optional (h : inner.AreSound) {b : Bool} :
    Sound (if b then pure none else some <$> inner.readExpression) fun o ts _ =>
      Spells (.optional o) ts := by
  refine sound_ite (fun _ => ?_) fun _ => ?_
  · refine sound_pure.mono ?_
    rintro _ _ _ ⟨rfl, rfl⟩
    exact .absent
  · refine (sound_readExpression h).map.mono ?_
    rintro _ ts _ ⟨e, rfl, he⟩
    exact .present he

lemma sound_readVar (h : inner.AreSound) :
    Sound inner.readVar fun s ts _ => Spells (.binding s) ts := by
  have hend (name : Token) (init : Option Expr) :
      Sound (expect .variableEnd >>= fun _ => pure (Stmt.var name init)) fun s ts _ =>
        ∃ semicolon, ts = [semicolon] ∧ semicolon.kind = .semicolon ∧
          s = .var name init := by
    refine (Sound.bind sound_expect fun _ => sound_pure).mono ?_
    rintro _ _ _ ⟨semicolon, _, _, rfl, ⟨rfl, hs⟩, rfl, rfl⟩
    exact ⟨semicolon, rfl, hs, rfl⟩
  rw [readVar_eq]
  refine SoundOn.mono (Sound.bind sound_expect fun name => Sound.accept (by simp)
    (fun _ => Sound.bind (sound_readExpression h).map fun init => hend name init)
    (hend name none)) ?_
  rintro _ _ rest ⟨name, _, _, rfl, ⟨rfl, hn⟩, ⟨equals, _, rfl, hk, _, ts, _, rfl, ⟨e, rfl, he⟩,
    semicolon, rfl, hs, rfl⟩ | ⟨⟨semicolon, rfl, hs, rfl⟩, -⟩⟩
  · exact .initialized hn (by simpa using hk) hs he
  · exact .uninitialized hn hs

lemma sound_readExpressionStmt (h : inner.AreSound) :
    Sound inner.readExpressionStmt fun s ts _ => Spells (.expressionStatement s) ts := by
  refine sound_look fun t => SoundOn.mono (SoundOn.bind (fun _ _ => trivial)
    (sound_readExpression h).on.first fun e => Sound.bind sound_expect fun _ => sound_pure) ?_
  rintro _ _ rest ⟨e, ts, _, rfl, ⟨he, hfirst⟩, semicolon, _, _, rfl, ⟨rfl, hs⟩, rfl, rfl⟩
  obtain ⟨first, us, rfl⟩ := List.exists_cons_of_ne_nil (he.ne_nil Nat.one_pos)
  obtain rfl := hfirst first us rfl
  exact .expressionStatement hs he

lemma sound_readPrint (h : inner.AreSound) (keyword : Token) :
    Sound (inner.readPrint keyword) fun s ts rest =>
      keyword.kind = .printWord → ∀ b, ReadsStatement b s (keyword :: ts) rest := by
  refine (Sound.bind (sound_readExpression h) fun e => Sound.bind sound_expect fun _ =>
    sound_pure).mono ?_
  rintro _ _ rest ⟨e, ts, _, rfl, he, semicolon, _, _, rfl, ⟨rfl, hs⟩, rfl, rfl⟩ hk b
  exact ⟨false, .print hk hs he, by simp⟩

lemma sound_readReturn (h : inner.AreSound) (keyword : Token) :
    Sound (inner.readReturn keyword) fun s ts rest =>
      keyword.kind = .returnWord → ∀ b, ReadsStatement b s (keyword :: ts) rest := by
  rw [readReturn_eq]
  refine (Sound.bind sound_sees fun b => Sound.bind (sound_optional h) fun e =>
    Sound.bind sound_expect fun _ => sound_pure).mono ?_
  rintro _ _ rest ⟨_, _, _, rfl, ⟨rfl, -⟩, e, ts, _, rfl, he, semicolon, _, _, rfl, ⟨rfl, hs⟩, rfl,
    rfl⟩ hk b
  exact ⟨false, .returnValue hk hs he, by simp⟩

lemma sound_readBreak (inLoop : Bool) (keyword : Token) :
    Sound (readBreak inLoop keyword) fun s ts rest =>
      keyword.kind = .breakWord → ReadsStatement inLoop s (keyword :: ts) rest := by
  cases inLoop
  · refine (Sound.bind (sound_report rfl) fun _ => Sound.bind sound_expect fun _ =>
      sound_pure).mono ?_
    rintro _ _ _ ⟨_, _, _, _, hf, _⟩
    exact hf.elim
  · refine (Sound.bind sound_expect fun _ => sound_pure).mono ?_
    rintro _ _ rest ⟨semicolon, _, _, rfl, ⟨rfl, hs⟩, rfl, rfl⟩ hk
    exact ⟨false, .breakLoop hk hs, by simp⟩

lemma sound_readIf (h : inner.AreSound) (inLoop : Bool) (keyword : Token) :
    Sound (inner.readIf inLoop keyword) fun s ts rest =>
      keyword.kind = .ifWord → ReadsStatement inLoop s (keyword :: ts) rest := by
  rw [readIf_eq]
  refine SoundOn.mono (Sound.bind sound_expect fun opening => Sound.bind (sound_readExpression h)
    fun c => Sound.bind sound_expect fun closing => Sound.bind (h.statement inLoop) fun yes =>
    Sound.accept (by simp) (fun word => Sound.bind (h.statement inLoop).map fun no => sound_pure)
    (Sound.bind sound_pure fun no => sound_pure)) ?_
  rintro s _ rest ⟨opening, _, _, rfl, ⟨rfl, ho⟩, c, ts, _, rfl, hc, closing, _, _, rfl, ⟨rfl, hp⟩,
    yes, us, _, rfl, ⟨takesElse, hyes, helse⟩, hno⟩ hk
  obtain ⟨word, _, rfl, hw, _, vs, _, rfl, ⟨no, rfl, o, hno, hend⟩, rfl, rfl⟩ |
    ⟨⟨_, _, _, rfl, ⟨rfl, rfl⟩, rfl, rfl⟩, hr⟩ := hno
  · have hw : word.kind = .elseWord := by simpa using hw
    have ho' : takesElse = false := Bool.of_not_eq_true fun ht => helse ht (by simpa using hw)
    subst ho'
    refine ⟨o, by simpa using .ifElse hk ho hp hw hc hyes hno, by simpa using hend⟩
  · refine ⟨true, by simpa using .ifOnly hk ho hp hc hyes, fun _ => by simpa using hr⟩

lemma sound_readWhile (h : inner.AreSound) (keyword : Token) :
    Sound (inner.readWhile keyword) fun s ts rest =>
      keyword.kind = .whileWord → ∀ b, ReadsStatement b s (keyword :: ts) rest := by
  refine (Sound.bind sound_expect fun opening => Sound.bind (sound_readExpression h)
    fun c => Sound.bind sound_expect fun closing => Sound.bind (h.statement true) fun body =>
    sound_pure).mono ?_
  rintro _ _ rest ⟨opening, _, _, rfl, ⟨rfl, ho⟩, c, ts, _, rfl, hc, closing, _, _, rfl, ⟨rfl, hp⟩,
    body, us, _, rfl, ⟨o, hbody, hend⟩, rfl, rfl⟩ hk b
  exact ⟨o, by simpa using .whileLoop hk ho hp hc hbody, by simpa using hend⟩

lemma sound_readForInit (h : inner.AreSound) :
    Sound inner.readForInit fun s ts _ => Spells (.forStart s) ts := by
  refine SoundOn.mono (Sound.accept (by simp) (fun semicolon => sound_pure) (Sound.accept (by simp)
    (fun keyword => (sound_readVar h).map) (sound_readExpressionStmt h).map)) ?_
  rintro _ ts rest (⟨semicolon, _, rfl, hs, rfl, rfl⟩ |
    ⟨⟨keyword, us, rfl, hk, s, rfl, hv⟩ | ⟨⟨s, rfl, he⟩, -⟩, -⟩)
  · exact .forNothing (by simpa using hs)
  · exact .forVariable (by simpa using hk) hv
  · exact .forExpression he

lemma sound_readFor (h : inner.AreSound) (keyword : Token) :
    Sound (inner.readFor keyword) fun s ts rest =>
      keyword.kind = .forWord → ∀ b, ReadsStatement b s (keyword :: ts) rest := by
  rw [readFor_eq]
  refine (Sound.bind sound_expect fun opening => Sound.bind (sound_readForInit h)
    fun start => Sound.bind sound_sees fun b => Sound.bind (sound_optional h) fun c =>
    Sound.bind sound_expect fun semicolon => Sound.bind sound_sees fun b =>
    Sound.bind (sound_optional h) fun step => Sound.bind sound_expect fun closing =>
    Sound.bind (h.statement true) fun body => sound_pure).mono ?_
  rintro _ _ rest ⟨opening, _, _, rfl, ⟨rfl, ho⟩, start, ts, _, rfl, hstart, _, _, _, rfl, ⟨rfl, -⟩,
    c, us, _, rfl, hc, semicolon, _, _, rfl, ⟨rfl, hs⟩, _, _, _, rfl, ⟨rfl, -⟩,
    step, vs, _, rfl, hstep, closing, _, _, rfl, ⟨rfl, hp⟩, body, ws, _, rfl, ⟨o, hbody, hend⟩,
    rfl, rfl⟩ hk b
  exact ⟨o, by simpa using .forLoop hk ho hs hp hstart hc hstep hbody, by simpa using hend⟩

lemma sound_readStatement (h : inner.AreSound) (inLoop : Bool) :
    Sound (inner.readStatement inLoop) (ReadsStatement inLoop) := by
  refine sound_look fun t => ?_
  split
  case h_1 hk =>
    exact sound_skip (by simp [hk]) (sound_readBreak inLoop t) fun _ _ _ hs => hs hk
  case h_2 hk => exact sound_skip (by simp [hk]) (sound_readFor h t) fun _ _ _ hs => hs hk inLoop
  case h_3 hk =>
    exact sound_skip (by simp [hk]) (sound_readIf h inLoop t) fun _ _ _ hs => hs hk
  case h_4 hk =>
    refine sound_skip (by simp [hk]) (Sound.bind (sound_readBlock h inLoop) fun body =>
      sound_pure) ?_
    rintro _ _ rest ⟨body, _, _, rfl, ⟨ts, closing, rfl, hc, hbody⟩, rfl, rfl⟩
    exact ⟨false, by simpa using .block hk hc hbody, by simp⟩
  case h_5 hk => exact sound_skip (by simp [hk]) (sound_readPrint h t) fun _ _ _ hs => hs hk inLoop
  case h_6 hk => exact sound_skip (by simp [hk]) (sound_readReturn h t) fun _ _ _ hs => hs hk inLoop
  case h_7 hk => exact sound_skip (by simp [hk]) (sound_readWhile h t) fun _ _ _ hs => hs hk inLoop
  case h_8 =>
    exact (sound_readExpressionStmt h).on.mono fun _ _ _ hs => ⟨false, .expression hs, by simp⟩

lemma sound_readMember (h : inner.AreSound) :
    Sound inner.readMember fun m ts _ => ∀ ms us, Spells (.members ms) us →
      Spells (.members (m :: ms)) (ts ++ us) := by
  refine SoundOn.mono (Sound.accept (by simp)
    (fun keyword => Sound.bind (sound_readFunction h .staticMethod) fun f => sound_pure)
    (Sound.bind (sound_readFunction h .method) fun f => sound_pure)) ?_
  rintro _ _ rest (⟨keyword, _, rfl, hk, _, _, _, rfl,
    ⟨name, ts, params, line, body, rfl, hn, rfl, hb, -⟩, rfl, rfl⟩ |
    ⟨⟨_, _, _, rfl, ⟨name, ts, params, line, body, rfl, hn, rfl, hb, -⟩, rfl, rfl⟩, -⟩) ms us hms
  · simpa using Spells.staticMember (by simpa using hk) hn hb hms
  · simpa using Spells.method hn hb hms

lemma sound_readSuperclass :
    Sound readSuperclass fun parent ts _ => Spells (.superclass parent) ts := by
  refine SoundOn.mono (Sound.accept (by simp)
    (fun less => Sound.bind sound_expect fun name => sound_pure) sound_pure) ?_
  rintro _ _ rest (⟨less, _, rfl, hl, name, _, _, rfl, ⟨rfl, hn⟩, rfl, rfl⟩ | ⟨⟨rfl, rfl⟩, -⟩)
  · exact .superclass (by simpa using hl) hn
  · exact .noSuperclass

lemma sound_readClass (h : inner.AreSound) :
    Sound inner.readClass fun s ts _ => ∀ b keyword, keyword.kind = .classWord →
      Spells (.declaration b s) (keyword :: ts) := by
  refine (Sound.bind sound_expect fun name => Sound.bind sound_readSuperclass fun parent =>
    Sound.bind sound_expect fun opening => Sound.bind (sound_collect
      (S := fun m ts => ∀ ms us, Spells (.members ms) us → Spells (.members (m :: ms)) (ts ++ us))
      (R := fun ms ts => Spells (.members ms) ts) .noMembers
      (fun _ _ _ _ hm => hm _ _) (fun _ _ hs => hs.weight_le) (sound_readMember h)) fun ms =>
    Sound.bind sound_expect fun closing => sound_pure).mono ?_
  rintro _ _ rest ⟨name, _, _, rfl, ⟨rfl, hn⟩, parent, ts, _, rfl, hparent, opening, _, _, rfl,
    ⟨rfl, ho⟩, ms, us, _, rfl, ⟨hms, -⟩, closing, _, _, rfl, ⟨rfl, hc⟩, rfl, rfl⟩ b keyword hk
  have hstatics : (ms.filterMap fun m => if m.1 then some m.2 else none) = membersOf true ms := rfl
  rw [← membersOf_false, hstatics]
  simpa using .classDecl hk hn ho hc hparent hms

lemma kind_peek_of_declaresFunction {c : Cursor} (h : declaresFunction c = true) :
    c.peek.kind = .funWord := by
  unfold declaresFunction at h
  split at h
  · next hc => simp_all [Cursor.peek]
  · cases h

lemma sound_readDeclared (h : inner.AreSound) (inLoop : Bool) :
    Sound (inner.readDeclared inLoop) fun s ts _ => Spells (.declaration inLoop s) ts := by
  refine SoundOn.mono (Sound.accept (by simp) (fun keyword => sound_readClass h)
    (P := fun s ts _ => Spells (.declaration inLoop s) ts) (sound_get fun d _ => ?_)) ?_
  · by_cases hd : declaresFunction d = true
    · rw [if_pos hd]
      have hk := kind_peek_of_declaresFunction hd
      refine (sound_skip (t := d.peek) (by simp [hk]) (Sound.bind (sound_readFunction h .function)
        fun f => sound_pure) ?_).weaken fun c hc => congrArg Cursor.peek hc
      rintro _ _ rest ⟨_, _, _, rfl, ⟨name, ts, params, line, body, rfl, hn, rfl, hb, hsome⟩, rfl,
        rfl⟩
      obtain ⟨params, rfl⟩ := Option.isSome_iff_exists.mp (hsome rfl)
      simpa using .function hk hn hb
    · rw [if_neg hd]
      refine SoundOn.mono (Sound.on (Sound.accept (by simp) (fun keyword => sound_readVar h)
        (sound_readStatement h inLoop))) ?_
      rintro s _ rest (⟨keyword, ts, rfl, hk, hs⟩ | ⟨⟨o, hs, -⟩, -⟩)
      · exact .variableDecl (by simpa using hk) hs
      · exact .statement hs
  · rintro s _ rest (⟨keyword, ts, rfl, hk, hs⟩ | ⟨hs, -⟩)
    · exact hs _ _ (by simpa using hk)
    · exact hs

lemma sound_recover : Sound recover fun _ _ _ => True := by
  intro c hc _
  obtain ⟨ts, hts⟩ := c.passes_skipStatement
  exact ⟨ts, [], hts, fun _ => trivial⟩

lemma sound_readDeclaration (h : inner.AreSound) (inLoop : Bool) :
    Sound (inner.readDeclaration inLoop) fun s ts _ => Spells (.declaration inLoop s) ts :=
  sound_orElse (sound_readDeclared h inLoop) sound_recover

lemma AreSound.within (h : inner.AreSound) : (within inner).AreSound where
  expression := sound_readExpression h
  ternary := sound_readTernary h
  equality := (sound_readEquality h).mono fun _ _ _ _ => trivial
  comparison := (sound_readComparison h).mono fun _ _ _ _ => trivial
  sum := (sound_readSum h).mono fun _ _ _ _ => trivial
  product := (sound_readProduct h).mono fun _ _ _ _ => trivial
  sign := sound_readSign h
  statement := sound_readStatement h
  declaration := sound_readDeclaration h

lemma sound_noExpression {α : Type} {P : α → List Token → List Token → Prop} :
    Sound noExpression P :=
  sound_look fun _ => sound_fail rfl

lemma areSound_empty : empty.AreSound where
  expression := sound_noExpression
  ternary := sound_noExpression
  equality := sound_noExpression
  comparison := sound_noExpression
  sum := sound_noExpression
  product := sound_noExpression
  sign := sound_noExpression
  statement _ := sound_noExpression
  declaration _ := sound_noExpression

lemma areSound_nested (depth : Nat) : (nested depth).AreSound := by
  induction depth with
  | zero => exact areSound_empty
  | succ depth ih => exact ih.within

end Readers

namespace Grammar

open Reader

variable {s : Scan}

lemma sound_readProgram (s : Scan) : Sound (readProgram (readers s)) fun body ts rest =>
    Spells (.declarations false body) ts ∧
      (rest = [] ∨ ∃ d : Cursor, d.rest = rest ∧ d.atEnd = true) :=
  sound_collect (R := fun body ts => Spells (.declarations false body) ts) .noDeclarations
    (fun _ _ _ _ => .declarations) (fun _ _ hs => hs.weight_le)
    ((Readers.areSound_nested _).declaration false)

theorem spells_of_program (hs : s.finish.kind = .finish) (h : (program s).2 = []) :
    Spells (.declarations false (program s).1) s.tokens := by
  have hx := sound_readProgram s (start s) hs trivial
  unfold program at h ⊢
  cases hm : readProgram (readers s) (start s) with
  | ok body d =>
    simp only [hm] at hx h ⊢
    obtain ⟨ts, new, hd, hp⟩ := hx
    have hnew : new = [] := by
      have := hd.reports
      simpa [h, start, Cursor.start] using this
    obtain ⟨hbody, hend⟩ := hp hnew
    have hrest : d.rest = [] := by
      obtain hrest | ⟨e, he, hempty⟩ := hend
      · exact hrest
      · simpa [← he, Cursor.atEnd] using hempty
    have htokens : s.tokens = ts := by
      have := hd.rest
      simpa [hrest, start, Cursor.start] using this
    exact htokens ▸ hbody
  | error e d =>
    simp only [hm] at hx h
    obtain ⟨ts, new, hd, hn⟩ := hx
    have := hd.reports
    simp [h, start, Cursor.start] at this
    exact absurd this hn

theorem isError_of_mem_reports (hs : s.finish.kind = .finish) {x : Diagnostic}
    (h : x ∈ (program s).2) : x.isError = true := by
  have hx := sound_readProgram s (start s) hs trivial
  have hnew {ts new d} (hd : (start s).Passes ts new d) (hmem : x ∈ d.reports) :
      x.isError = true := by
    rw [hd.reports] at hmem
    exact hd.errors x (by simpa [start, Cursor.start] using hmem)
  unfold program at h
  cases hm : readProgram (readers s) (start s) with
  | ok body d =>
    simp only [hm] at hx h
    obtain ⟨ts, new, hd, -⟩ := hx
    exact hnew hd h
  | error e d =>
    simp only [hm] at hx h
    obtain ⟨ts, new, hd, -⟩ := hx
    exact hnew hd h

end Grammar

end Lox
