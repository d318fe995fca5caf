import Lox.Proofs.Eval.Blame
import Lox.Proofs.Eval.Congruence
import Lox.Proofs.Eval.Watch

/-! Unwinding: a failure is raised by one piece, which puts it down to a token, and every piece
around it fails with the same failure. -/

namespace Lox

structure Moment where
  frame : FrameId
  node : Node
  store : Store

namespace Evaluator

def BreaksOff (E : Evaluator) (m : Moment) (a : Abort) (s : Store) : Prop :=
  match m.node with
  | .expr e => E.eval m.frame e m.store = .error a s
  | .stmt st => E.exec m.frame st m.store = .error a s

noncomputable def refusing (E : Evaluator) (m : Moment) : Evaluator :=
  E.watched (fun frame node s => ⟨frame, node, s⟩ ≠ m) .endless

def ComesTo (E : Evaluator) (m m' : Moment) : Prop :=
  ∃ s, (within (E.refusing m')).BreaksOff m .endless s

end Evaluator

def Eval.muted {α : Type} (act : Eval α) : Eval α := fun s =>
  match act s with
  | .error (.failure _) s' => .error .endless s'
  | result => result

def Evaluator.muted (E : Evaluator) : Evaluator where
  eval := fun frame e => Eval.muted (E.eval frame e)
  exec := fun frame st => Eval.muted (E.exec frame st)
  levels := E.levels
  turns := E.turns

/-- A failure on its way out: the second moment is where it is raised, though nothing that is
evaluated inside fails, and every piece on the way from there to the first one fails with it. -/
inductive Unwinds (turns : Nat) (f : Failure) (s : Store) : Nat → Moment → Moment → Prop
  | raised {levels : Nat} {m : Moment}
      (h : (Evaluator.deep turns (levels + 1)).BreaksOff m (.failure f) s)
      (hown : (Evaluator.within (Evaluator.deep turns levels).muted).BreaksOff m (.failure f) s) :
    Unwinds turns f s (levels + 1) m m
  | passed {levels : Nat} {m m' origin : Moment}
      (h : (Evaluator.deep turns (levels + 1)).BreaksOff m (.failure f) s)
      (hcomes : (Evaluator.deep turns levels).ComesTo m m')
      (hinner : Unwinds turns f s levels m' origin) :
    Unwinds turns f s (levels + 1) m origin

lemma Eval.raises_muted {α : Type} {P : Failure → Prop} (act : Eval α) : act.muted.Raises P := by
  intro s f s' h
  unfold muted at h
  split at h
  · cases h
  · rename_i hno
    exact absurd h (hno f s')

lemma Evaluator.silent_muted (E : Evaluator) : E.muted.Silent := fun _ =>
  ⟨fun frame e => (E.eval frame e).raises_muted, fun frame st => (E.exec frame st).raises_muted⟩

theorem Evaluator.Silent.blames {E : Evaluator} (hE : E.Silent) {m : Moment} {f : Failure}
    {s : Store} (hground : m.node.Grounded m.frame m.store)
    (h : (within E).BreaksOff m (.failure f) s) : m.node.Blames f := by
  obtain ⟨frame, node, store⟩ := m
  cases node with
  | expr e => exact hE.evalExpr hground h
  | stmt st => exact hE.execStmt frame st store f s h

inductive Handling where
  | plain
  | watched
  | muted
  | refusing (m : Moment)

structure Evaluator.Watches (E W : Evaluator) : Prop where
  levels : W.levels = E.levels
  turns : W.turns = E.turns
  eval (frame : FrameId) (e : Expr) (s : Store) :
    (∃ s', W.eval frame e s = .error .endless s') ∨ W.eval frame e s = E.eval frame e s
  exec (frame : FrameId) (st : Stmt) (s : Store) :
    (∃ s', W.exec frame st s = .error .endless s') ∨ W.exec frame st s = E.exec frame st s

noncomputable def Evaluator.handled (E W : Evaluator) : Handling → Evaluator
  | .plain => E
  | .watched => W
  | .muted => E.muted
  | .refusing m => E.refusing m

namespace Congruence

def tracing (W : Evaluator) : Congruence Handling where
  Rel x := ∀ s, (∃ s', x .watched s = .error .endless s') ∨
    x .watched s = x .plain s ∧
    (x .muted s = x .plain s ∨ ∃ f s' m, x .plain s = .error (.failure f) s' ∧
      W.BreaksOff m (.failure f) s' ∧ ∃ s'', x (.refusing m) s = .error .endless s'') ∧
    ∀ m, x (.refusing m) s = x .plain s ∨ ∃ s'', x (.refusing m) s = .error .endless s''
  same act s := .inr ⟨rfl, .inl rfl, fun _ => .inl rfl⟩
  bind {α β x k} hx hk s := by
    rcases hx s with ⟨s', h⟩ | ⟨hwatched, hmuted, hrefusing⟩
    · exact .inl ⟨s', Eval.bind_of_error h _⟩
    cases hplain : x .plain s with
    | error a s₁ =>
      rw [hplain] at hwatched hmuted hrefusing
      have hbind := Eval.bind_of_error hplain (k .plain)
      refine .inr ⟨(Eval.bind_of_error hwatched _).trans hbind.symm, ?_, fun m => ?_⟩
      · rcases hmuted with h | ⟨f, s', m, h, hm, s'', hr⟩
        · exact .inl ((Eval.bind_of_error h _).trans hbind.symm)
        · cases h
          exact .inr ⟨f, s₁, m, hbind, hm, s'', Eval.bind_of_error hr _⟩
      · rcases hrefusing m with h | ⟨s'', h⟩
        · exact .inl ((Eval.bind_of_error h _).trans hbind.symm)
        · exact .inr ⟨s'', Eval.bind_of_error h _⟩
    | ok v s₁ =>
      rw [hplain] at hwatched hmuted hrefusing
      have hbind := Eval.bind_of_ok hplain (k .plain)
      rcases hk v s₁ with ⟨s', h⟩ | ⟨hkwatched, hkmuted, hkrefusing⟩
      · exact .inl ⟨s', (Eval.bind_of_ok hwatched _).trans h⟩
      have hstops (m : Moment) {s''} (h : k (.refusing m) v s₁ = .error .endless s'') :
          ∃ s'', (x (.refusing m) >>= k (.refusing m)) s = .error .endless s'' := by
        rcases hrefusing m with hr | ⟨t, hr⟩
        · exact ⟨s'', (Eval.bind_of_ok hr _).trans h⟩
        · exact ⟨t, Eval.bind_of_error hr _⟩
      refine .inr ⟨((Eval.bind_of_ok hwatched _).trans hkwatched).trans hbind.symm, ?_, fun m => ?_⟩
      · have hv : x .muted s = .ok v s₁ := hmuted.resolve_right fun ⟨_, _, _, h, _⟩ => nomatch h
        rcases hkmuted with h | ⟨f, s', m, h, hm, s'', hr⟩
        · exact .inl ((Eval.bind_of_ok hv _).trans (h.trans hbind.symm))
        · exact .inr ⟨f, s', m, hbind.trans h, hm, hstops m hr⟩
      · rcases hkrefusing m with h | ⟨s'', h⟩
        · rcases hrefusing m with hr | ⟨t, hr⟩
          · exact .inl ((Eval.bind_of_ok hr _).trans (h.trans hbind.symm))
          · exact .inr ⟨t, Eval.bind_of_error hr _⟩
        · exact .inr (hstops m h)

theorem tracing_piece {α : Type} {act watched : Eval α} (refused : Moment → Eval α)
    (here : Store → Moment) {W : Evaluator}
    (hwatched : ∀ s, (∃ s', watched s = .error .endless s') ∨ watched s = act s)
    (hgoes : ∀ {m s}, here s ≠ m → refused m s = act s)
    (hstops : ∀ s, refused (here s) s = .error .endless s)
    (hfails : ∀ {s f s'}, watched s = .error (.failure f) s' →
      W.BreaksOff (here s) (.failure f) s') (s : Store) :
    (∃ s', watched s = .error .endless s') ∨ watched s = act s ∧
    (act.muted s = act s ∨ ∃ f s' m, act s = .error (.failure f) s' ∧
      W.BreaksOff m (.failure f) s' ∧ ∃ s'', refused m s = .error .endless s'') ∧
    ∀ m, refused m s = act s ∨ ∃ s'', refused m s = .error .endless s'' := by
  refine (hwatched s).imp id fun hsame => ⟨hsame, ?_, fun m => ?_⟩
  · unfold Eval.muted
    cases h : act s with
    | ok => exact .inl rfl
    | error a s' =>
      cases a with
      | failure f => exact .inr ⟨f, s', here s, rfl, hfails (hsame.trans h), s, hstops s⟩
      | _ => exact .inl rfl
  · by_cases h : here s = m
    · exact .inr ⟨s, h ▸ hstops s⟩
    · exact .inl (hgoes h)

lemma traces_handled {E W : Evaluator} (hW : E.Watches W) :
    Evaluator.Congruent (tracing W) (E.handled W) := by
  have hlevels : ∀ i, (E.handled W i).levels = E.levels := by
    intro i
    cases i with
    | watched => exact hW.levels
    | _ => rfl
  have hturns : ∀ i, (E.handled W i).turns = E.turns := by
    intro i
    cases i with
    | watched => exact hW.turns
    | _ => rfl
  refine .ofRoom hlevels hturns (fun frame e => ?_) fun frame st => ?_
  · apply tracing_piece (fun m => (E.refusing m).eval frame e) (fun s => ⟨frame, .expr e, s⟩)
      (hW.eval frame e)
    · exact fun h => if_pos h
    · exact fun s => if_neg (absurd rfl)
    · exact id
  · apply tracing_piece (fun m => (E.refusing m).exec frame st) (fun s => ⟨frame, .stmt st, s⟩)
      (hW.exec frame st)
    · exact fun h => if_pos h
    · exact fun s => if_neg (absurd rfl)
    · exact id

end Congruence

namespace Evaluator

variable {E W : Evaluator} {proper : FrameId → Node → Store → Prop} {turns levels : Nat}
  {m : Moment} {f : Failure} {s : Store}

lemma Watches.watched (h : E.Watches W) (proper : FrameId → Node → Store → Prop) :
    E.Watches (W.watched proper .endless) where
  levels := h.levels
  turns := h.turns
  eval frame e s := by
    unfold Evaluator.watched
    dsimp only
    split
    · exact h.eval frame e s
    · exact .inl ⟨s, rfl⟩
  exec frame st s := by
    unfold Evaluator.watched
    dsimp only
    split
    · exact h.exec frame st s
    · exact .inl ⟨s, rfl⟩

lemma Watches.within (h : E.Watches W) : (within E).Watches (.within W) where
  levels := congrArg Nat.succ h.levels
  turns := h.turns
  eval frame e s := ((Congruence.traces_handled h).evalExpr frame e s).imp id And.left
  exec frame st s := ((Congruence.traces_handled h).execStmt frame st s).imp id And.left

lemma watches_deepWatched (proper : FrameId → Node → Store → Prop) (turns levels : Nat) :
    (deep turns levels).Watches (.deepWatched proper .endless turns levels) := by
  induction levels with
  | zero =>
    have h : (exhausted turns).Watches (exhausted turns) :=
      ⟨rfl, rfl, fun _ _ _ => .inr rfl, fun _ _ _ => .inr rfl⟩
    exact h.watched proper
  | succ levels ih => exact ih.within.watched proper

theorem BreaksOff.of_watched (h : (E.watched proper .endless).BreaksOff m (.failure f) s) :
    proper m.frame m.node m.store ∧ E.BreaksOff m (.failure f) s := by
  obtain ⟨frame, node, store⟩ := m
  cases node
  all_goals
    unfold BreaksOff Evaluator.watched at h
    dsimp only at h
    split at h
    · exact ⟨‹_›, h⟩
    · cases h

lemma Watches.breaksOff (hW : E.Watches W) {a : Abort} (h : W.BreaksOff m a s)
    (ha : a ≠ .endless) : E.BreaksOff m a s := by
  obtain ⟨frame, node, store⟩ := m
  cases node with
  | expr e =>
    rcases hW.eval frame e store with ⟨s', halarm⟩ | hsame
    · cases halarm.symm.trans h
      exact absurd rfl ha
    · exact hsame.symm.trans h
  | stmt st =>
    rcases hW.exec frame st store with ⟨s', halarm⟩ | hsame
    · cases halarm.symm.trans h
      exact absurd rfl ha
    · exact hsame.symm.trans h

theorem Watches.origin (hW : E.Watches W) (h : W.within.BreaksOff m (.failure f) s) :
    E.muted.within.BreaksOff m (.failure f) s ∨
      ∃ m', W.BreaksOff m' (.failure f) s ∧ E.ComesTo m m' := by
  have hplain := hW.within.breaksOff h nofun
  have htraces := Congruence.traces_handled hW
  obtain ⟨frame, node, store⟩ := m
  cases node with
  | expr e =>
    rcases htraces.evalExpr frame e store with ⟨s', halarm⟩ | ⟨_, hmuted, _⟩
    · exact nomatch halarm.symm.trans h
    rcases hmuted with hsame | ⟨f', s', m', hfails, hm', hcomes⟩
    · exact .inl (hsame.trans hplain)
    · cases hfails.symm.trans hplain
      exact .inr ⟨m', hm', hcomes⟩
  | stmt st =>
    rcases htraces.execStmt frame st store with ⟨s', halarm⟩ | ⟨_, hmuted, _⟩
    · exact nomatch halarm.symm.trans h
    rcases hmuted with hsame | ⟨f', s', m', hfails, hm', hcomes⟩
    · exact .inl (hsame.trans hplain)
    · cases hfails.symm.trans hplain
      exact .inr ⟨m', hm', hcomes⟩

theorem exists_unwinds (hground : ∀ frame node s, proper frame node s → node.Grounded frame s)
    (h : (deepWatched proper .endless turns levels).BreaksOff m (.failure f) s) :
    ∃ origin, Unwinds turns f s levels m origin ∧
      proper origin.frame origin.node origin.store ∧ origin.node.Blames f := by
  induction levels generalizing m with
  | zero =>
    obtain ⟨_, h⟩ := h.of_watched
    obtain ⟨frame, node, store⟩ := m
    cases node <;> cases h
  | succ levels ih =>
    obtain ⟨hproper, hin⟩ := h.of_watched
    have hW := watches_deepWatched proper turns levels
    have hplain := hW.within.breaksOff hin nofun
    rcases hW.origin hin with hown | ⟨m', hm', hcomes⟩
    · have hblames := (silent_muted _).blames (hground _ _ _ hproper) hown
      exact ⟨m, .raised hplain hown, hproper, hblames⟩
    · obtain ⟨origin, hinner, horigin⟩ := ih hm'
      exact ⟨origin, .passed hplain hcomes hinner, horigin⟩

end Evaluator

end Lox
