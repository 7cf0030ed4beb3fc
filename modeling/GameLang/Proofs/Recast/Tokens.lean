import GameLang.Proofs.Recast.Outline
import GameLang.Proofs.Recast.Reader

/-!
# The tokens of a tree are those that were read

A recast that changes no token that is read changes no tree either. So what holds of all tokens that
are read holds of the tokens in the nodes of the program (`Program.forall_tokens_of_ok`).
-/

namespace GameLang

variable {W : Token → Prop}

open Classical in
/-- Gives another text to the tokens that lack a property. -/
noncomputable def Recast.marking (ending : W (Token.ending .start)) : Recast where
  token t := if W t then t else { t with lexeme := t.lexeme ++ "?" }
  value := id
  kind_token t := by split <;> rfl
  literal_token t := by split <;> exact (congrFun Option.map_id t.literal).symm
  token_ending := if_pos ending

variable {ending : W (Token.ending .start)} {t : Token}

theorem Recast.token_marking (holds : W t) : (marking ending).token t = t := if_pos holds

theorem Recast.of_token_marking (same : (marking ending).token t = t) : W t := by
  by_cases holds : W t
  · exact holds
  · have changed : (marking ending).token t = { t with lexeme := t.lexeme ++ "?" } := if_neg holds
    rw [changed] at same
    -- The other text is longer, so a token that gets it does not stay the same.
    have length : (t.lexeme ++ "?").length = t.lexeme.length :=
      congrArg (fun u => u.lexeme.length) same
    rw [String.length_append] at length
    exact absurd length (Nat.ne_of_gt (Nat.lt_succ_self _))

/-! ### Nodes that a recast does not change -/

namespace Node

variable {r : Recast}

mutual

theorem token_eq_of_recast_eq {depth : Nat} {n : Node} {rest : List Entry} (same : n.recast r = n)
    (others : ∀ e ∈ rest, ∀ t ∈ e.token, r.token t = t) :
    ∀ e ∈ n.entriesOnto depth rest, ∀ t ∈ e.token, r.token t = t := by
  cases n with
  | mk label token children =>
    rw [recast] at same
    obtain ⟨-, kept, keptChildren⟩ := Node.mk.inj same
    rw [entriesOnto]
    refine List.forall_mem_cons.mpr ⟨?_, token_eq_of_recasts_eq keptChildren others⟩
    rintro t (found : token = some t)
    rw [found] at kept
    exact Option.some.inj kept

theorem token_eq_of_recasts_eq {depth : Nat} {ns : List Node} {rest : List Entry}
    (same : recasts r ns = ns) (others : ∀ e ∈ rest, ∀ t ∈ e.token, r.token t = t) :
    ∀ e ∈ childEntriesOnto depth ns rest, ∀ t ∈ e.token, r.token t = t := by
  cases ns with
  | nil => exact others
  | cons n ns =>
    rw [recasts] at same
    obtain ⟨first, siblings⟩ := List.cons.inj same
    exact token_eq_of_recast_eq first (token_eq_of_recasts_eq siblings others)

end

end Node

/-- What holds of the tokens that are read, and of an end, holds of the tokens of the program. -/
theorem Program.forall_tokens_of_ok (ending : W (Token.ending .start)) {levels : Nat}
    {ts rest : List Token} {p : Program} (read : Reader.program levels ts = .ok p rest)
    (all : ∀ t ∈ ts, W t) : ∀ e ∈ p.node.entries, ∀ t ∈ e.token, W t := by
  have kept : ts.map (Recast.marking ending).token = ts := by
    rw [List.map_congr_left fun t member => Recast.token_marking (all t member), List.map_id']
  have agree := Reader.program_follows (r := .marking ending) levels ts
  rw [kept, read] at agree
  have same : p = p.recast (.marking ending) := agree.1
  have nodes : p.node.recast (.marking ending) = p.node := by rw [← Program.node_recast, ← same]
  intro e member t found
  exact Recast.of_token_marking (Node.token_eq_of_recast_eq nodes (by simp) e member t found)

end GameLang
