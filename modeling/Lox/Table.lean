namespace Lox

structure Table (α : Type) where
  entries : List (String × α)
  deriving Repr, DecidableEq, Inhabited

namespace Table

variable {α : Type}

def empty : Table α := ⟨[]⟩

def findIn (name : String) : List (String × α) → Option α
  | [] => none
  | (key, x) :: more => if key = name then some x else findIn name more

def putIn (name : String) (x : α) : List (String × α) → List (String × α)
  | [] => [(name, x)]
  | (key, old) :: more => if key = name then (key, x) :: more else (key, old) :: putIn name x more

def find? (t : Table α) (name : String) : Option α := findIn name t.entries

def binds (t : Table α) (name : String) : Bool := (t.find? name).isSome

def put (t : Table α) (name : String) (x : α) : Table α := ⟨putIn name x t.entries⟩

def update (t : Table α) (name : String) (f : α → α) : Table α :=
  match t.find? name with
  | some x => t.put name (f x)
  | none => t

def names (t : Table α) : List String := t.entries.map Prod.fst

def values (t : Table α) : List α := t.entries.map Prod.snd

theorem findIn_putIn (name other : String) (x : α) (entries : List (String × α)) :
    findIn other (putIn name x entries) = if name = other then some x else findIn other entries := by
  induction entries with
  | nil => rfl
  | cons entry more ih =>
    obtain ⟨key, old⟩ := entry
    by_cases h : key = name
    · subst h; by_cases h' : key = other <;> simp [putIn, findIn, h']
    · by_cases h' : key = other
      · subst h'; simp [putIn, findIn, h, Ne.symm h]
      · simp [putIn, findIn, h, h', ih]

@[simp] theorem find?_put_self (t : Table α) (name : String) (x : α) :
    (t.put name x).find? name = some x := by
  simp [find?, put, findIn_putIn]

theorem find?_put (t : Table α) (name other : String) (x : α) :
    (t.put name x).find? other = if name = other then some x else t.find? other :=
  findIn_putIn name other x t.entries

theorem find?_update (t : Table α) (name other : String) (f : α → α) :
    (t.update name f).find? other =
      if name = other then (t.find? name).map f else t.find? other := by
  unfold update
  cases h : t.find? name with
  | none =>
    by_cases hn : name = other
    · subst hn
      simp [h]
    · simp [hn]
  | some x => simp [find?_put]

end Table

end Lox
