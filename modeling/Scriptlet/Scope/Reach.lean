/-!
What can be reached in a finite graph.

Main statement: the nodes that `reachable` lists are exactly those at the end of a path from a root
that stays among the nodes of the graph.
-/

namespace Scriptlet

variable {α : Type} [DecidableEq α]

/-- The nodes reached so far, and those among `unseen` that can be reached from `todo`. Every node
is visited once; nodes outside of `unseen` are not visited. -/
def explore (next : α → List α) (reached unseen todo : List α) : List α :=
  match todo with
  | [] => reached
  | n :: rest =>
    if n ∈ unseen then explore next (n :: reached) (unseen.erase n) (next n ++ rest)
    else explore next reached unseen rest
termination_by todo.length + unseen.length + (unseen.flatMap next).length
decreasing_by
  · rename_i fresh
    have once := List.perm_cons_erase fresh
    have fewer := once.length_eq
    have edges := (once.flatMap_right next).length_eq
    simp only [List.flatMap_cons, List.length_append, List.length_cons] at fewer edges ⊢
    omega
  · simp only [List.length_cons]
    omega

/-- The nodes of a finite graph that can be reached from `roots`. -/
def reachable (next : α → List α) (nodes roots : List α) : List α :=
  explore next [] nodes roots

/-- There is a path from a root, and all of it lies among the nodes. -/
inductive Reach (next : α → List α) (nodes roots : List α) : α → Prop where
  | root {n : α} : n ∈ roots → n ∈ nodes → Reach next nodes roots n
  | step {m n : α} : Reach next nodes roots m → n ∈ next m → n ∈ nodes → Reach next nodes roots n

theorem of_mem_explore {next : α → List α} {nodes : List α} {P : α → Prop}
    (closed : ∀ m n, P m → n ∈ next m → n ∈ nodes → P n)
    {reached unseen todo : List α} (sub : unseen ⊆ nodes)
    (before : ∀ n ∈ reached, P n) (ahead : ∀ n ∈ todo, n ∈ nodes → P n) :
    ∀ n ∈ explore next reached unseen todo, P n := by
  fun_induction explore next reached unseen todo with
  | case1 => exact before
  | case2 reached unseen n rest fresh ih =>
    have here : P n := ahead n List.mem_cons_self (sub fresh)
    refine ih (fun m hm => sub (List.mem_of_mem_erase hm)) ?_ ?_
    · intro m hm
      rcases List.mem_cons.1 hm with rfl | hm
      · exact here
      · exact before m hm
    · intro m hm inside
      rcases List.mem_append.1 hm with hm | hm
      · exact closed n m here hm inside
      · exact ahead m (List.mem_cons_of_mem n hm) inside
  | case3 reached unseen n rest old ih =>
    exact ih sub before fun m hm inside => ahead m (List.mem_cons_of_mem n hm) inside

theorem reached_subset_explore (next : α → List α) (reached unseen todo : List α) :
    reached ⊆ explore next reached unseen todo := by
  fun_induction explore next reached unseen todo with
  | case1 => exact fun _ h => h
  | case2 reached unseen n rest fresh ih => exact fun m hm => ih (List.mem_cons_of_mem n hm)
  | case3 reached unseen n rest old ih => exact ih

theorem explore_closed {next : α → List α} {nodes : List α} {reached unseen todo : List α}
    (cover : ∀ n ∈ nodes, n ∈ unseen ∨ n ∈ reached)
    (pending : ∀ m ∈ reached, ∀ n ∈ next m, n ∈ nodes → n ∈ reached ∨ n ∈ todo) :
    (∀ n ∈ todo, n ∈ nodes → n ∈ explore next reached unseen todo) ∧
      ∀ m ∈ explore next reached unseen todo, ∀ n ∈ next m, n ∈ nodes →
        n ∈ explore next reached unseen todo := by
  fun_induction explore next reached unseen todo with
  | case1 => exact ⟨by simp, by simpa using pending⟩
  | case2 reached unseen n rest fresh ih =>
    have both := ih
      (fun m hm => by
        by_cases same : m = n
        · exact .inr (by simp [same])
        · rcases cover m hm with h | h
          · exact .inl ((List.mem_erase_of_ne same).2 h)
          · exact .inr (List.mem_cons_of_mem n h))
      (fun m hm k hk inside => by
        rcases List.mem_cons.1 hm with rfl | hm
        · exact .inr (List.mem_append_left _ hk)
        · rcases pending m hm k hk inside with h | h
          · exact .inl (List.mem_cons_of_mem n h)
          · rcases List.mem_cons.1 h with rfl | h
            · exact .inl List.mem_cons_self
            · exact .inr (List.mem_append_right _ h))
    refine ⟨fun m hm inside => ?_, both.2⟩
    rcases List.mem_cons.1 hm with rfl | hm
    · exact reached_subset_explore _ _ _ _ List.mem_cons_self
    · exact both.1 m (List.mem_append_right _ hm) inside
  | case3 reached unseen n rest old ih =>
    have visited : n ∈ nodes → n ∈ reached := fun inside => (cover n inside).resolve_left old
    have both := ih cover (fun m hm k hk inside => by
      rcases pending m hm k hk inside with h | h
      · exact .inl h
      · rcases List.mem_cons.1 h with rfl | h
        · exact .inl (visited inside)
        · exact .inr h)
    refine ⟨fun m hm inside => ?_, both.2⟩
    rcases List.mem_cons.1 hm with rfl | hm
    · exact reached_subset_explore _ _ _ _ (visited inside)
    · exact both.1 m hm inside

theorem mem_reachable_iff {next : α → List α} {nodes roots : List α} {n : α} :
    n ∈ reachable next nodes roots ↔ Reach next nodes roots n := by
  have closed := @explore_closed α _ next nodes [] nodes roots (fun _ h => .inl h) (by simp)
  constructor
  · exact of_mem_explore (fun _ _ => .step) (fun _ h => h) (by simp) (fun _ => .root) n
  · intro h
    induction h with
    | root there inside => exact closed.1 _ there inside
    | step _ edge inside ih => exact closed.2 _ ih _ edge inside

end Scriptlet
