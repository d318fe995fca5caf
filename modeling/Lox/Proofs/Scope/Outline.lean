import Lox.Proofs.Syntax.WellFormed
import Lox.Scope.Resolve

namespace Lox

def Scope.status (s : Scope) (name : String) : Option Bool := (s.find? name).map Binding.ready

lemma Scope.binds_eq (s : Scope) (name : String) : s.binds name = (s.status name).isSome := by
  simp [Table.binds, status]

lemma Scope.status_put (s : Scope) (name other : String) (b : Binding) :
    status (s.put name b) other = if name = other then some b.ready else s.status other := by
  rw [status, Table.find?_put]
  split <;> rfl

lemma Scope.status_update (s : Scope) (name other : String) (f : Binding → Binding) :
    status (s.update name f) other =
      if name = other then (s.find? name).map fun b => (f b).ready else s.status other := by
  rw [status, Table.find?_update]
  split
  · cases s.find? name <;> rfl
  · rfl

namespace Scopes

def outline (σ : Scopes) : List (String → Option Bool) := σ.stack.map Scope.status

structure Keeps (σ τ : Scopes) : Prop where
  outline : τ.outline = σ.outline
  reports : σ.reports <+: τ.reports

structure Grows (σ τ : Scopes) : Prop where
  outer : τ.outline.tail = σ.outline.tail
  length : τ.outline.length = σ.outline.length
  names : ∀ status ∈ σ.outline.head?, ∀ status' ∈ τ.outline.head?,
    ∀ name, (status name).isSome → (status' name).isSome
  reports : σ.reports <+: τ.reports

def setStatus (name : String) (ready : Bool) (status : String → Option Bool) :
    String → Option Bool :=
  fun other => if name = other then some ready else status other

def passing : Option Token → (String → Option Bool) → String → Option Bool
  | none => id
  | some t => setStatus t.lexeme true

structure Declares (t : Option Token) (σ τ : Scopes) : Prop where
  outline : τ.outline = σ.outline.modifyHead (passing t)
  reports : σ.reports <+: τ.reports

variable {σ τ υ : Scopes} {name : String}

lemma length_outline (σ : Scopes) : σ.outline.length = σ.stack.length := List.length_map _

lemma outline_eq_nil_iff (σ : Scopes) : σ.outline = [] ↔ σ.stack = [] := List.map_eq_nil_iff

lemma innermost?_map_ready (σ : Scopes) (name : String) :
    (σ.innermost? name).map Binding.ready = σ.outline.head?.bind fun status => status name := by
  unfold innermost? outline
  cases σ.stack <;> rfl

lemma Keeps.refl (σ : Scopes) : σ.Keeps σ := ⟨rfl, List.prefix_refl _⟩

lemma Keeps.trans (h : σ.Keeps τ) (h' : τ.Keeps υ) : σ.Keeps υ :=
  ⟨h'.outline.trans h.outline, h.reports.trans h'.reports⟩

lemma Grows.refl (σ : Scopes) : σ.Grows σ where
  outer := rfl
  length := rfl
  names status h status' h' name hn := by rwa [← Option.mem_unique h h']
  reports := List.prefix_refl _

lemma Grows.trans (h : σ.Grows τ) (h' : τ.Grows υ) : σ.Grows υ where
  outer := h'.outer.trans h.outer
  length := h'.length.trans h.length
  names status hs status' hs' name hn := by
    cases hm : τ.outline with
    | nil =>
      have hυ : υ.outline = [] := List.length_eq_zero_iff.mp (by rw [h'.length, hm]; rfl)
      rw [hυ] at hs'
      cases hs'
    | cons middle outer =>
      have hmiddle : middle ∈ τ.outline.head? := by rw [hm]; rfl
      exact h'.names middle hmiddle status' hs' name (h.names status hs middle hmiddle name hn)
  reports := h.reports.trans h'.reports

lemma isSome_passing {t : Option Token} {status : String → Option Bool}
    (h : (status name).isSome) : (passing t status name).isSome := by
  cases t with
  | none => exact h
  | some t =>
    rw [passing, setStatus]
    split
    · rfl
    · exact h

lemma Declares.grows {t : Option Token} (h : σ.Declares t τ) : σ.Grows τ where
  outer := by
    rw [h.outline]
    cases σ.outline <;> rfl
  length := by rw [h.outline, List.length_modifyHead]
  names status hs status' hs' name hn := by
    rw [h.outline] at hs'
    cases ho : σ.outline with
    | nil =>
      rw [ho] at hs
      cases hs
    | cons first outer =>
      rw [ho] at hs hs'
      cases hs
      cases hs'
      exact isSome_passing hn
  reports := h.reports

lemma Keeps.declares (h : σ.Keeps τ) : σ.Declares none τ :=
  ⟨h.outline.trans (congrFun List.modifyHead_id _).symm, h.reports⟩

lemma Declares.keeps (h : σ.Declares none τ) : σ.Keeps τ :=
  ⟨h.outline.trans (congrFun List.modifyHead_id _), h.reports⟩

lemma Keeps.grows (h : σ.Keeps τ) : σ.Grows τ := h.declares.grows

lemma keeps_report (σ : Scopes) (t : Token) (problem : Problem) :
    σ.Keeps (σ.report t problem) := ⟨rfl, List.prefix_append _ _⟩

lemma keeps_markUsed (σ : Scopes) (depth : Nat) (name : String) :
    σ.Keeps (σ.markUsed depth name) := by
  refine ⟨?_, List.prefix_refl _⟩
  unfold markUsed outline
  refine List.ext_getElem? fun i => ?_
  simp only [List.getElem?_map, List.getElem?_modify]
  cases σ.stack[i]? with
  | none => rfl
  | some scope =>
    simp only [Option.map_some, Functor.map]
    congr 1
    split
    · funext other
      rw [Scope.status_update]
      split
      · next h =>
        subst h
        rfl
      · rfl
    · rfl

lemma outline_updateInnermost (σ : Scopes) {f : Scope → Scope}
    {g : (String → Option Bool) → String → Option Bool}
    (h : ∀ scope ∈ σ.stack.head?, (f scope).status = g scope.status) :
    (σ.updateInnermost f).outline = σ.outline.modifyHead g := by
  unfold updateInnermost outline
  cases hs : σ.stack with
  | nil => simp [hs]
  | cons scope outer => simp [h scope (by simp [hs])]

lemma outline_declare (σ : Scopes) (name : Token) (tracked : Bool) :
    (σ.declare name tracked).outline = σ.outline.modifyHead (setStatus name.lexeme false) := by
  have hput : ∀ scope : Scope,
      Scope.status (scope.put name.lexeme ⟨some name, false, false, tracked⟩) =
        setStatus name.lexeme false scope.status :=
    fun _ => funext fun _ => Scope.status_put _ _ _ _
  unfold declare
  rw [outline_updateInnermost _ fun scope _ => hput scope]
  split <;> rfl

lemma outline_declareImplicit (σ : Scopes) (name : String) :
    (σ.declareImplicit name).outline = σ.outline.modifyHead (setStatus name true) :=
  outline_updateInnermost σ fun _ _ => funext fun _ => Scope.status_put _ _ _ _

theorem outline_define (σ : Scopes) (name : Token)
    (h : ∀ status ∈ σ.outline.head?, (status name.lexeme).isSome) :
    (σ.define name).outline = σ.outline.modifyHead (setStatus name.lexeme true) := by
  refine outline_updateInnermost σ fun scope hscope => funext fun other => ?_
  rw [Scope.status_update, setStatus]
  split
  · have hstatus : scope.status ∈ σ.outline.head? := by
      rw [outline, List.head?_map]
      exact Option.mem_map_of_mem _ hscope
    have hsome := h _ hstatus
    rw [Scope.status, Option.isSome_map] at hsome
    obtain ⟨b, hb⟩ := Option.isSome_iff_exists.mp hsome
    rw [hb]
    rfl
  · rfl

lemma setStatus_setStatus (name : String) (ready ready' : Bool) :
    setStatus name ready' ∘ setStatus name ready = setStatus name ready' := by
  funext status other
  simp only [Function.comp_apply, setStatus]
  split <;> rfl

lemma reports_updateInnermost (σ : Scopes) (f : Scope → Scope) :
    (σ.updateInnermost f).reports = σ.reports := by
  unfold updateInnermost
  cases σ.stack <;> rfl

lemma reports_declare (σ : Scopes) (name : Token) (tracked : Bool) :
    σ.reports <+: (σ.declare name tracked).reports := by
  unfold declare
  rw [reports_updateInnermost]
  split
  · exact List.prefix_append _ _
  · exact List.prefix_refl _

lemma Keeps.declares_define {t : Token} {tracked : Bool} (h : (σ.declare t tracked).Keeps τ) :
    τ.Declares (some t) (τ.define t) := by
  have hdeclared := h.outline.trans (outline_declare σ t tracked)
  refine ⟨outline_define τ t fun status hstatus => ?_, ?_⟩
  · rw [hdeclared] at hstatus
    cases ho : σ.outline with
    | nil =>
      rw [ho] at hstatus
      cases hstatus
    | cons first outer =>
      rw [ho] at hstatus
      cases hstatus
      simp [setStatus]
  · simp only [Scopes.define, reports_updateInnermost, List.prefix_refl]

theorem Keeps.define {t : Token} {tracked : Bool} (h : (σ.declare t tracked).Keeps τ) :
    σ.Declares (some t) (τ.define t) := by
  have hdefine := h.declares_define
  refine ⟨?_, ((reports_declare σ t tracked).trans h.reports).trans hdefine.reports⟩
  rw [hdefine.outline, h.outline, outline_declare, List.modifyHead_modifyHead, passing,
    setStatus_setStatus]

lemma outline_enter (σ : Scopes) : σ.enter.outline = (fun _ => none) :: σ.outline := rfl

lemma outline_leave (σ : Scopes) : σ.leave.outline = σ.outline.tail := by
  unfold leave outline
  cases h : σ.stack with
  | nil => simp [h]
  | cons scope outer => rfl

lemma reports_leave (σ : Scopes) : σ.leave.reports = σ.reports := by
  unfold leave
  cases σ.stack <;> rfl

theorem Grows.leave (h : σ.enter.Grows τ) : σ.Keeps τ.leave where
  outline := by rw [outline_leave, h.outer, outline_enter, List.tail_cons]
  reports := by
    rw [reports_leave]
    exact h.reports

def nearest? (name : String) : List (String → Option Bool) → Option (Nat × Bool)
  | [] => none
  | status :: outer =>
    match status name with
    | some ready => some (0, ready)
    | none => (nearest? name outer).map fun found => (found.1 + 1, found.2)

lemma nearest?_cons_of_none {status : String → Option Bool}
    {outer : List (String → Option Bool)} (h : status name = none) :
    nearest? name (status :: outer) =
      (nearest? name outer).map fun found => (found.1 + 1, found.2) := by
  rw [nearest?, h]

lemma nearest?_cons_of_some {status : String → Option Bool}
    {outer : List (String → Option Bool)} {ready : Bool} (h : status name = some ready) :
    nearest? name (status :: outer) = some (0, ready) := by
  rw [nearest?, h]

lemma depth?_eq (σ : Scopes) (name : String) :
    σ.depth? name = (nearest? name σ.outline).map Prod.fst := by
  unfold depth? outline
  induction σ.stack with
  | nil => rfl
  | cons scope outer ih =>
    rw [List.findIdx?_cons, ih, Scope.binds_eq, List.map_cons]
    cases h : scope.status name with
    | none =>
      rw [nearest?_cons_of_none h]
      cases nearest? name (outer.map Scope.status) <;> rfl
    | some ready =>
      rw [nearest?_cons_of_some h]
      rfl

lemma getElem?_of_nearest? {outline : List (String → Option Bool)} {depth : Nat} {ready : Bool}
    (h : nearest? name outline = some (depth, ready)) :
    ∃ status, outline[depth]? = some status ∧ status name = some ready := by
  induction outline generalizing depth with
  | nil => cases h
  | cons status outer ih =>
    cases hs : status name with
    | none =>
      rw [nearest?_cons_of_none hs] at h
      obtain ⟨⟨d, r⟩, hfound, heq⟩ := Option.map_eq_some_iff.mp h
      cases heq
      exact ih hfound
    | some r =>
      rw [nearest?_cons_of_some hs] at h
      cases h
      exact ⟨status, rfl, hs⟩

lemma nearest?_modifyHead {g : (String → Option Bool) → String → Option Bool}
    (h : ∀ status, g status name = status name) (outline : List (String → Option Bool)) :
    nearest? name (outline.modifyHead g) = nearest? name outline := by
  cases outline with
  | nil => rfl
  | cons status outer => simp [nearest?, h]

lemma setStatus_of_ne {other : String} (h : other ≠ name) (ready : Bool)
    (status : String → Option Bool) : setStatus other ready status name = status name := if_neg h

lemma passing_of_ne {t : Option Token} (h : ∀ t' ∈ t, t'.lexeme ≠ name)
    (status : String → Option Bool) : passing t status name = status name := by
  cases t with
  | none => rfl
  | some t => exact setStatus_of_ne (h t rfl) true status

end Scopes

end Lox
