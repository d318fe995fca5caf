import Lox.Proofs.Alike.Match
import Lox.Proofs.Grammar.Replace
import Lox.Proofs.Session.Rename

/-! Loops in two forms: a program and the same program with the `while` form of one of its `for`
statements cannot be told apart, but for the places of messages. -/

namespace Lox

open Likeness (words)
open Readers (EndsStatement)
open Resolver (resolveStmts outermost)

namespace Diagnostic

lemma map_placeless_errors (ds : List Diagnostic) :
    (errors ds).map placeless = (ds.map placeless).filter fun d => d.2.severity = .error := by
  rw [List.filter_map]
  rfl

lemma hasError_eq_any_placeless (ds : List Diagnostic) :
    hasError ds = (ds.map placeless).any fun d => d.2.severity = .error := by
  rw [List.any_map]
  rfl

end Diagnostic

namespace Scopes.Matches

variable {σ σ' : Scopes}

theorem perm_warnings (h : σ.Matches σ') :
    ((warnings σ'.unused).map Diagnostic.placeless).Perm
      ((warnings σ.unused).map Diagnostic.placeless) := by
  let f : Token → Spot × Problem := fun t =>
    (Diagnostic.atToken t (.unusedLocal t.lexeme)).placeless
  have hsame : σ'.unused.map f = σ.unused.map f := by
    have hunused := h.unused
    generalize σ.unused = ts at hunused
    generalize σ'.unused = ts' at hunused
    induction hunused with
    | nil => rfl
    | @cons t t' _ _ ht _ ih =>
      have hf : f t' = f t := by
        change (Diagnostic.atToken t' (.unusedLocal t'.lexeme)).placeless = _
        rw [ht.lexeme]
        exact ht.placeless _
      rw [List.map_cons, List.map_cons, hf, ih]
  have hsorted (ts : List Token) :
      ((warnings ts).map Diagnostic.placeless).Perm (ts.map f) := by
    unfold warnings
    rw [List.map_map]
    exact (List.mergeSort_perm ts before).map _
  exact (hsorted σ'.unused).trans (hsame ▸ (hsorted σ.unused).symm)

end Scopes.Matches

namespace Program

variable {source source' : String} {body body' : List Stmt}

theorem compile_words (h : AlikeStmts words () body body')
    (hscan : (Scan.ofString source).diagnostics = [])
    (hbody : Spells (.declarations false body) (Scan.ofString source).tokens)
    (hscan' : (Scan.ofString source').diagnostics = [])
    (hbody' : Spells (.declarations false body') (Scan.ofString source').tokens) :
    let p := compile source
    let p' := compile source'
    AlikeStmts words () p.body p'.body ∧
      (Diagnostic.errors p'.diagnostics).map Diagnostic.placeless =
        (Diagnostic.errors p.diagnostics).map Diagnostic.placeless ∧
      (p'.diagnostics.map Diagnostic.placeless).Perm (p.diagnostics.map Diagnostic.placeless) := by
  intro p p'
  obtain ⟨hresult, hending⟩ := h.matching outermost body body' .start .start .start
  change (ending body).Matches (ending body') at hending
  have hp : p = _ := compile_of_spells hscan hbody
  have hp' : p' = _ := compile_of_spells hscan' hbody'
  have hnone (ts : List Token) : Diagnostic.errors (Scopes.warnings ts) = [] := by
    refine List.filter_eq_nil_iff.mpr fun d hd => ?_
    have herror := List.any_eq_false.mp (Scopes.hasError_warnings ts) d hd
    exact herror
  have herrors {σ : Scopes} : (Diagnostic.errors (σ.reports ++ Scopes.warnings σ.unused)).map
      Diagnostic.placeless = (Diagnostic.errors σ.reports).map Diagnostic.placeless := by
    rw [Diagnostic.errors, List.filter_append]
    change (Diagnostic.errors _ ++ Diagnostic.errors _).map _ = _
    rw [hnone, List.append_nil]
  rw [hp, hp']
  refine ⟨hresult, ?_, ?_⟩
  · dsimp only
    rw [herrors, herrors, Diagnostic.map_placeless_errors, Diagnostic.map_placeless_errors,
      hending.reports]
  · dsimp only
    rw [List.map_append, List.map_append, hending.reports]
    exact hending.perm_warnings.append_left _

lemma hasError_of_perm {p p' : Program}
    (h : (p'.diagnostics.map Diagnostic.placeless).Perm (p.diagnostics.map Diagnostic.placeless)) :
    p'.hasError = p.hasError := by
  rw [hasError, hasError, Diagnostic.hasError_eq_any_placeless,
    Diagnostic.hasError_eq_any_placeless]
  exact h.any_eq

end Program

structure SameRun (p p' : Program) (step step' : Step ExitCode) : Prop where
  out : step'.written.out = step.written.out
  result : step'.result.mapError Abort.message = step.result.mapError Abort.message
  -- After the diagnostics comes what is said about the end of the run.
  err : ∃ c c' : String, step.written.err = reportLines p.diagnostics ++ c ∧
    step'.written.err = reportLines p'.diagnostics ++ c' ∧ Variation.places.Complaint c c'
  responses : ∀ requests, List.Forall₂ (Response.Alike .places) (step.session.responses requests)
    (step'.session.responses requests)

/-- Sources that differ in places only. They are read and resolved to trees of the same words with
the same depths, they give the same errors in the same order and the same warnings, which are sorted
by their places, and they run alike in every session. -/
structure SameProgram (source source' : String) : Prop where
  hasError : (Program.ofSource source').hasError = (Program.ofSource source).hasError
  read : AlikeStmts words () (Program.ofSource source).body (Program.ofSource source').body
  resolved : AlikeStmts words () (Program.compile source).body (Program.compile source').body
  errors : (Diagnostic.errors (Program.compile source').diagnostics).map Diagnostic.placeless =
    (Diagnostic.errors (Program.compile source).diagnostics).map Diagnostic.placeless
  diagnostics : ((Program.compile source').diagnostics.map Diagnostic.placeless).Perm
    ((Program.compile source).diagnostics.map Diagnostic.placeless)
  run : ∀ s, Served s → SameRun (.compile source) (.compile source') (s.run source) (s.run source')

theorem Served.sameRun {s : Session} (hs : Served s) {source source' : String}
    (h : AlikeStmts words () (Program.compile source).body (Program.compile source').body)
    (hsame : (Program.compile source').hasError = (Program.compile source).hasError) :
    SameRun (.compile source) (.compile source') (s.run source) (s.run source') := by
  have hself : s.Alike .places s := hs.alike_self fun _ _ => trivial
  have hresponses {s' s'' : Session} (h : s'.Alike .places s'') := h.responses fun _ _ => trivial
  rw [Session.run_eq, Session.run_eq, Session.conclude, Session.conclude, hsame]
  cases (Program.compile source).hasError with
  | true =>
    simp only [if_true, Step.reporting, Session.idle]
    exact ⟨rfl, rfl, ⟨"", "", rfl, rfl, .inl ⟨rfl, rfl⟩⟩, hresponses hself⟩
  | false =>
    have hforce := hself.force (h.weaken Variation.weaker_words rfl _ _)
    have hresult := hforce.result_catching (fun _ => ExitCode.success) .failed fun _ _ _ _ => rfl
    have hout := hforce.out.trans String.empty_append
    simp only [Bool.false_eq_true, if_false, Step.reporting, Step.catching, hforce.err.1,
      hforce.err.2, String.empty_append] at hresult ⊢
    exact ⟨hout, hresult, ⟨_, _, rfl, rfl, Variation.places.complaint_of_failure hforce.failure?⟩,
      hresponses hforce.session⟩

theorem sameProgram_whileForm {source source' : String}
    (hsound : (Program.ofSource source).hasError = false) {before rest : List Token}
    {p : ForParts} {o : Bool} {s : Stmt}
    (htokens : (Scan.ofString source).tokens = before ++ (p.tokens ++ rest)) (hp : p.Denotes o s)
    (hend : EndsStatement o rest) (hscan' : (Scan.ofString source').diagnostics = [])
    (htokens' : List.Forall₂ Token.SameWord (before ++ (p.whileForm ++ rest))
      (Scan.ofString source').tokens) :
    SameProgram source source' := by
  obtain ⟨hscan, hbody⟩ := Program.spells_of_sound hsound
  obtain ⟨body₁, hbody₁, halike₁⟩ := hbody.declarations_whileForm htokens hp hend
  obtain ⟨_, ⟨body', rfl, halike'⟩, hbody'⟩ :=
    hbody₁.alike Token.interchangeable_sameWord Likeness.words_covers htokens'
  have halike := halike₁.trans _ _ _ halike'
  obtain ⟨hresolved, herrors, hdiagnostics⟩ :=
    Program.compile_words halike hscan hbody hscan' hbody'
  have hsource' := Program.ofSource_of_spells hscan' hbody'
  have hsame := Program.hasError_of_perm hdiagnostics
  refine ⟨?_, ?_, hresolved, herrors, hdiagnostics, fun s hs => hs.sameRun hresolved hsame⟩
  · rw [hsound, hsource']
    rfl
  · rwa [hsource']

/-- A `for` statement is its `while` form. Wherever one is read without a report, its tree has the
words of the one that is read from its `while` form, but for the keyword of the loop. Every `for` of
a program that is read without an error starts such a statement, and the program with the `while`
form in its place is the same. -/
theorem forLoop_is_whileForm :
    (∀ {n : Nat} {inLoop : Bool} {c d : Cursor} {s : Stmt},
      (Readers.nested n).statement inLoop c = .ok s d → c.finish.kind = .finish →
      following c.rest = .forWord → d.reports = c.reports →
      ∃ (p : ForParts) (o : Bool), c.rest = p.tokens ++ d.rest ∧ p.Denotes o s ∧
        EndsStatement o d.rest ∧
        ∀ {n' : Nat} {c' : Cursor} {ts rest' : List Token}, c'.rest = ts ++ rest' →
          c'.finish.kind = .finish → List.Forall₂ Token.SameWord p.whileForm ts →
          EndsStatement o rest' → ts.length ≤ n' →
          ∃ s' d', (Readers.nested n').statement inLoop c' = .ok s' d' ∧ s.Alike words () s' ∧
            d'.rest = rest' ∧ d'.reports = c'.reports) ∧
    ∀ {source : String}, (Program.ofSource source).hasError = false →
      (∀ {before after : List Token} {keyword : Token},
        (Scan.ofString source).tokens = before ++ keyword :: after → keyword.kind = .forWord →
        ∃ (p : ForParts) (rest : List Token) (o : Bool) (s : Stmt),
          keyword :: after = p.tokens ++ rest ∧ p.Denotes o s ∧ EndsStatement o rest) ∧
      ∀ {before rest : List Token} {p : ForParts} {o : Bool} {s : Stmt} {source' : String},
        (Scan.ofString source).tokens = before ++ (p.tokens ++ rest) → p.Denotes o s →
        EndsStatement o rest → (Scan.ofString source').diagnostics = [] →
        List.Forall₂ Token.SameWord (before ++ (p.whileForm ++ rest))
          (Scan.ofString source').tokens →
        SameProgram source source' := by
  refine ⟨fun {n inLoop c d s} hread hf hk hreports => ?_, fun {source} hsound => ⟨?_, ?_⟩⟩
  · obtain ⟨p, o, hrest, hp, hend⟩ := Readers.exists_denotes hread hf hk hreports
    refine ⟨p, o, hrest, hp, hend, fun {n' c' ts rest'} hrest' hf' hts hend' hn => ?_⟩
    obtain ⟨s', halike, hreads⟩ := Readers.reads_whileForm hp hts hn inLoop
    obtain ⟨d', hd', hpass, hstop⟩ := hreads c' rest' hrest' hf' hend'
    exact ⟨s', d', hd', halike, hstop, by rw [hpass.reports, List.append_nil]⟩
  · intro before after keyword htokens hk
    obtain ⟨p, rest, -, o, s, hparts, hp, hend, -, -⟩ :=
      (Program.spells_of_sound hsound).2.slotted.slots before keyword after htokens hk
    exact ⟨p, rest, o, s, hparts, hp, hend⟩
  · intro before rest p o s source' htokens hp hend hscan' htokens'
    exact sameProgram_whileForm hsound htokens hp hend hscan' htokens'

theorem forLoop_is_whileForm_closure :
    let source := "var g; for (var i = 0; i < 3; i = i + 1) " ++
      "\x7b g = fun () \x7b return i; \x7d; break; \x7d print g();"
    let source' := "var g; \x7b var i = 0; while (i < 3) " ++
      "\x7b \x7b g = fun () \x7b return i; \x7d; break; \x7d i = i + 1; \x7d \x7d print g();"
    let finish := Scan.finishAt ⟨1, 1⟩
    let c := Cursor.start ((Scan.ofString source).tokens.drop 3) finish
    (∃ (p : ForParts) (s s' : Stmt) (d d' : Cursor),
      (Readers.nested 50).statement false c = .ok s d ∧ c.rest = p.tokens ++ d.rest ∧
        (Readers.nested p.whileForm.length).statement false (.start p.whileForm finish) =
          .ok s' d' ∧
        s.Alike words () s') ∧
      (Program.ofSource source).hasError = false ∧ (Scan.ofString source').diagnostics = [] ∧
      (∃ (before rest : List Token) (p : ForParts) (s : Stmt),
        (Scan.ofString source).tokens = before ++ (p.tokens ++ rest) ∧ p.Denotes false s ∧
          EndsStatement false rest ∧
          List.Forall₂ Token.SameWord (before ++ (p.whileForm ++ rest))
            (Scan.ofString source').tokens) ∧
      SameProgram source source' := by
  intro source source' finish c
  -- The tokens of the loop, part by part.
  let word (k : Kind) (text : String) (column : Nat) : Token := ⟨k, text, 1, column⟩
  let returned := [word .returnWord "return" 57, word .identifier "i" 64, word .semicolon ";" 65]
  let closure := word .funWord "fun" 48 :: word .leftParen "(" 52 :: word .rightParen ")" 53 ::
    word .leftBrace "\x7b" 55 :: (returned ++ [word .rightBrace "\x7d" 67])
  let p : ForParts := {
    keyword := word .forWord "for" 8
    opening := word .leftParen "(" 12
    start := [word .varWord "var" 13, word .identifier "i" 17, word .equal "=" 19,
      word .number "0" 21, word .semicolon ";" 22]
    condition := [word .identifier "i" 24, word .less "<" 26, word .number "3" 28]
    semicolon := word .semicolon ";" 29
    step := [word .identifier "i" 31, word .equal "=" 33, word .identifier "i" 35,
      word .plus "+" 37, word .number "1" 39]
    closing := word .rightParen ")" 40
    body := word .leftBrace "\x7b" 42 :: word .identifier "g" 44 :: word .equal "=" 46 ::
      (closure ++ [word .semicolon ";" 68, word .breakWord "break" 70, word .semicolon ";" 75,
        word .rightBrace "\x7d" 77]) }
  have name (text : String) (column : Nat) : Spells (.expression .call
      (.ref ⟨word .identifier text column, none⟩)) [word .identifier text column] :=
    .pass (by decide) (.ref rfl)
  have number (text : String) (column : Nat) : Spells (.expression .call
      (.literal (word .number text column) (.number (Literal.readNumber text.toList))))
      [word .number text column] :=
    .pass (by decide) (.literal rfl)
  have hstart : Spells (.forStart (some _)) p.start :=
    .forVariable rfl (.initialized rfl rfl rfl ((number "0" 21).loosen (by decide)))
  have hless : Spells (.expression .comparison _) p.condition :=
    .join (by decide) ((name "i" 24).loosen (by decide)) ((number "3" 28).loosen (by decide))
  have hsum : Spells (.expression .sum _)
      [word .identifier "i" 35, word .plus "+" 37, word .number "1" 39] :=
    .join (by decide) ((name "i" 35).loosen (by decide)) ((number "1" 39).loosen (by decide))
  have hstep : Spells (.expression .assignment _) p.step :=
    .assign rfl ((name "i" 31).loosen (by decide)) (hsum.loosen (by decide))
  have hreturn : Spells (.statement false false _) returned :=
    .returnValue rfl rfl (.present ((name "i" 64).loosen (by decide)))
  have hreturns : Spells (.declarations false [_]) returned :=
    .declarations (.statement hreturn) .noDeclarations
  have hlambda : Spells (.expression .ternary _) closure :=
    .lambda rfl (.rest (.noParameters rfl rfl) (.getter rfl rfl hreturns))
  have hassign : Spells (.expression .assignment _)
      (word .identifier "g" 44 :: word .equal "=" 46 :: closure) :=
    .assign rfl ((name "g" 44).loosen (by decide)) hlambda
  have hfirst : Spells (.statement true false _)
      (word .identifier "g" 44 :: word .equal "=" 46 :: (closure ++ [word .semicolon ";" 68])) :=
    .expression (.expressionStatement rfl (hassign.loosen (by decide)))
  have hbreak : Spells (.statement true false _)
      [word .breakWord "break" 70, word .semicolon ";" 75] := .breakLoop rfl rfl
  have hbreaks : Spells (.declarations true [_])
      [word .breakWord "break" 70, word .semicolon ";" 75] :=
    .declarations (.statement hbreak) .noDeclarations
  have hbody : Spells (.statement true false _) p.body :=
    .block rfl rfl (.declarations (.statement hfirst) hbreaks)
  have hp : p.Denotes false _ := ⟨rfl, rfl, rfl, rfl, _, _, _, _, hstart,
    .present (hless.loosen (by decide)), .present (hstep.loosen (by decide)), hbody, rfl⟩
  let before := [word .varWord "var" 1, word .identifier "g" 5, word .semicolon ";" 6]
  let rest := [word .printWord "print" 79, word .identifier "g" 85, word .leftParen "(" 86,
    word .rightParen ")" 87, word .semicolon ";" 88]
  have hend : EndsStatement false rest := by simp [EndsStatement]
  obtain ⟨hsound, htokens⟩ : (Program.ofSource source).hasError = false ∧
      (Scan.ofString source).tokens = before ++ (p.tokens ++ rest) := by decide +kernel
  obtain ⟨hscan', hwords⟩ : (Scan.ofString source').diagnostics = [] ∧
      (Scan.ofString source').tokens.map (fun t => (t.kind, t.lexeme)) =
        (before ++ (p.whileForm ++ rest)).map fun t => (t.kind, t.lexeme) := by decide +kernel
  have htokens' := forall₂_sameWord_of_eq hwords
  refine ⟨?_, hsound, hscan', ⟨_, _, p, _, htokens, hp, hend, htokens'⟩,
    (forLoop_is_whileForm.2 hsound).2 htokens hp hend hscan' htokens'⟩
  have hrest : c.rest = p.tokens ++ rest := by
    change (Scan.ofString source).tokens.drop 3 = _
    rw [htokens]
    rfl
  obtain ⟨d, hd, hpass, -⟩ := (Readers.areComplete_nested 50).statement false false _ _
    (hp.statement false) (by decide) c _ hrest rfl hend
  obtain ⟨q, o, hq, -, -, hwhile⟩ := forLoop_is_whileForm.1 hd rfl (by rw [hrest]; rfl)
    (by rw [hpass.reports, List.append_nil])
  have hform : (Cursor.start q.whileForm finish).rest = q.whileForm ++ [] :=
    (List.append_nil _).symm
  obtain ⟨s', d', hd', halike, -, -⟩ := hwhile hform rfl
    (List.forall₂_same.mpr fun t _ => .refl t) (by simp [EndsStatement]) (Nat.le_refl _)
  exact ⟨q, _, s', d, d', hd, hq, hd', halike⟩

end Lox
