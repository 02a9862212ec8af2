import Tourney.Proofs.Arena.Wiring

/-!
# Consecutive ids

Generated matches take the ids that follow a first one. As long as the last id has a successor,
an id grows with its distance from the first (`MatchId.plus_lt`), and the arena is ordered
(`Numbered.ordered`).
-/

namespace Tourney

namespace MatchId

theorem toNat_plus {id : MatchId} {k : Nat} (h : id.val.toNat + k < UInt32.size) :
    (id.plus k).val.toNat = id.val.toNat + k := by
  have hk : k < UInt32.size := by omega
  simp only [plus, UInt32.toNat_add, UInt32.toNat_ofNat']
  rw [Nat.mod_eq_of_lt (a := k) hk, Nat.mod_eq_of_lt h]

theorem plus_zero (id : MatchId) : id.plus 0 = id := by
  simp [plus]

theorem plus_plus (id : MatchId) (j k : Nat) : (id.plus j).plus k = id.plus (j + k) := by
  simp [plus, UInt32.add_assoc, UInt32.ofNat_add]

theorem plus_lt {id : MatchId} {j k : Nat} (hjk : j < k) (h : id.val.toNat + k < UInt32.size) :
    (id.plus j).val < (id.plus k).val := by
  rw [UInt32.lt_iff_toNat_lt, toNat_plus h, toNat_plus (by omega)]
  omega

end MatchId

namespace Arena

/-- The ids of the matches follow one another from a first one. -/
def Numbered (first : MatchId) (ms : List Match) : Prop :=
  ms.map (·.id) = (List.range ms.length).map first.plus

variable {first : MatchId} {ms ms' : List Match}

theorem Numbered.ordered (h : Numbered first ms)
    (hfit : first.val.toNat + ms.length ≤ UInt32.size) : Ordered ms := by
  have key : (ms.map (·.id)).Pairwise fun a b => a.val < b.val := by
    rw [h, List.pairwise_map]
    refine List.pairwise_lt_range.imp_of_mem fun {a b} _ hb hab => MatchId.plus_lt hab ?_
    have := List.mem_range.1 hb
    omega
  rw [List.pairwise_map] at key
  exact key

theorem Numbered.consecutive (h : Numbered first ms)
    (hfit : first.val.toNat + ms.length ≤ UInt32.size) :
    ms.map (fun m => m.id.val.toNat) = List.range' first.val.toNat ms.length := by
  have hids := congrArg (List.map fun id : MatchId => id.val.toNat) h
  rw [List.map_map, List.map_map] at hids
  rw [List.range'_eq_map_range]
  refine hids.trans (List.map_congr_left fun k hk => ?_)
  have := List.mem_range.1 hk
  exact MatchId.toNat_plus (by omega)

theorem Numbered.append (h : Numbered first ms) (h' : Numbered (first.plus ms.length) ms') :
    Numbered first (ms ++ ms') := by
  unfold Numbered at *
  rw [List.map_append, List.length_append, List.range_add, List.map_append, h, h', List.map_map]
  congr 1
  exact List.map_congr_left fun k _ => MatchId.plus_plus ..

theorem Numbered.mem {m : Match} (h : Numbered first ms) (hm : m ∈ ms) :
    ∃ k < ms.length, m.id = first.plus k := by
  have hid : m.id ∈ ms.map (·.id) := List.mem_map_of_mem hm
  rw [h, List.mem_map] at hid
  obtain ⟨k, hk, hkm⟩ := hid
  exact ⟨k, List.mem_range.1 hk, hkm.symm⟩

theorem Numbered.getLast? (h : Numbered first ms) (hne : ms ≠ []) :
    ∃ m, ms.getLast? = some m ∧ m.id = first.plus (ms.length - 1) := by
  refine ⟨ms.getLast hne, List.getLast?_eq_some_getLast hne, ?_⟩
  have hl := congrArg List.getLast? h
  have hpos := List.length_pos_iff.2 hne
  rw [List.getLast?_map, List.getLast?_map, List.getLast?_eq_some_getLast hne,
    List.getLast?_range, if_neg (by omega)] at hl
  simpa using hl

theorem Numbered.of_outlines (h : Numbered first ms)
    (hout : ms'.map Match.outline = ms.map Match.outline) : Numbered first ms' := by
  have hids : ms'.map (·.id) = ms.map (·.id) := by
    have := congrArg (List.map (·.id)) hout
    rwa [List.map_map, List.map_map] at this
  have hlen : ms'.length = ms.length := by simpa using congrArg List.length hids
  unfold Numbered
  rw [hids, hlen]
  exact h

end Arena

end Tourney
