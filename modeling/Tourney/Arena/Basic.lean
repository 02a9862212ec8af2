import Tourney.Fault

/-!
# Arenas

The matches of a tournament in one list, looked up by id. Where two matches share an id the first
one stands for both.
-/

namespace Tourney.Arena

def find? (ms : List Match) (id : MatchId) : Option Match := ms.find? (·.id = id)

def find (ms : List Match) (id : MatchId) : Except Fault Match :=
  match find? ms id with
  | some m => .ok m
  | none => .error (.matchNotFound id)

/-- Changes the first match of an id. -/
def modify (id : MatchId) (f : Match → Match) : List Match → List Match
  | [] => []
  | m :: ms => if m.id = id then f m :: ms else m :: modify id f ms

theorem find?_cons_self {m : Match} {ms : List Match} : find? (m :: ms) m.id = some m := by
  simp [find?]

theorem find?_cons_ne {m : Match} {ms : List Match} {id : MatchId} (h : m.id ≠ id) :
    find? (m :: ms) id = find? ms id := by
  simp [find?, h]

/-- How many matches are pending. -/
def pendingCount (ms : List Match) : Nat := ms.countP (·.status = .pending)

theorem pendingCount_cons (m : Match) (ms : List Match) :
    pendingCount (m :: ms) = pendingCount ms + if m.status = .pending then 1 else 0 := by
  simp [pendingCount, List.countP_cons]

/-- A change that makes no match pending adds no pending match. -/
theorem pendingCount_modify_le {id : MatchId} {f : Match → Match}
    (hf : ∀ m, (f m).status = .pending → m.status = .pending) (ms : List Match) :
    pendingCount (modify id f ms) ≤ pendingCount ms := by
  induction ms with
  | nil => simp [modify]
  | cons m ms ih =>
    by_cases h : m.id = id
    · simp only [modify, h, if_true, pendingCount_cons]
      have := hf m
      split <;> split <;> simp_all
    · simp only [modify, h, if_false, pendingCount_cons]
      omega

/-- Resolving a pending match leaves one pending match fewer. -/
theorem pendingCount_modify_lt {id : MatchId} {f : Match → Match} {ms : List Match} {m : Match}
    (hm : find? ms id = some m) (hp : m.status = .pending) (hf : (f m).status ≠ .pending) :
    pendingCount (modify id f ms) < pendingCount ms := by
  induction ms with
  | nil => simp [find?] at hm
  | cons m' ms ih =>
    by_cases h : m'.id = id
    · subst h
      rw [find?_cons_self] at hm
      cases hm
      simp [modify, pendingCount_cons, hp, hf]
    · rw [find?_cons_ne h] at hm
      have := ih hm
      simp only [modify, h, if_false, pendingCount_cons]
      omega

end Tourney.Arena
