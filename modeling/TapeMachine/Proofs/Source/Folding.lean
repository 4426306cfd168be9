import Mathlib.Data.Int.ModEq
import TapeMachine.Console
import TapeMachine.Machine
import TapeMachine.Proofs.RoundTrip
import TapeMachine.Proofs.Source.Tokens

/-!
# Sources of one run

A source that is a single run compiles to a single command, which keeps of the run only a residue.
The main theorem, `compile_run`, says which residue this is and what becomes of it: the offset of a
move is the signed representative of the residue, so a run that is not too long moves the head by as
much as its operators do one at a time.

How far a run goes is an integer of any size, and `headAfter_eq` speaks of this integer. Residues
come in only at the end, through `signedOffset_emod_eq`.
-/

namespace TapeMachine

/-- A number that fits a signed word is the offset of its residue. -/
theorem signedOffset_emod_eq {net : Int} (h : fitsWord net) :
    signedOffset (net % pointerModulus) = net := by
  have hmodulus : pointerModulus = 18446744073709551616 := rfl
  unfold fitsWord at h
  simp only [signedOffset, hmodulus]
  split <;> omega

/-! ## Moves one at a time -/

/-- Where an operator takes the head on a tape of `size` cells: one cell to the right or one to the
left, with the first cell behind the last one. Other operators leave the head where it is. -/
def Operator.headAfter (size : Nat) (head : Int) : Operator → Int
  | right => (head + 1) % size
  | left => (head - 1) % size
  | increment | decrement | output | input | opening | closing => head

namespace Token

/-- Where the operators of a token take the head one after the other. -/
def headAfter (size : Nat) (head : Int) (token : Token) : Int :=
  token.foldl (Operator.headAfter size) head

/-- How far to the right a token goes: its steps to the right less those to the left. -/
def net (token : Token) : Int :=
  token.count .right - token.count .left

variable {token : Token} {instruction : Instruction} {size : Nat} {head : Int}

/-- A token goes as far as its first operator and then the others. -/
theorem net_cons (op : Operator) (token : Token) : net (op :: token) = net [op] + token.net := by
  simp only [net, List.count_cons, List.count_nil]
  omega

/-- A token goes no further than it has operators. -/
theorem natAbs_net_le (token : Token) : token.net.natAbs ≤ token.length := by
  have hright := token.count_le_length (a := .right)
  have hleft := token.count_le_length (a := .left)
  unfold net
  omega

/-- An operator that moves the head takes it as far as it goes, around the tape. -/
theorem headAfter_of_moves {op : Operator} (hop : op.moves = true) :
    op.headAfter size head = (head + net [op]) % size := by
  cases op <;> cases hop <;> rfl

/-- The moves of a run, one at a time, take the head as far as the run goes, around the tape. -/
theorem headAfter_eq (hrun : ∀ op ∈ token, op.moves = true) (hlow : 0 ≤ head)
    (hhigh : head < size) : headAfter size head token = (head + net token) % size := by
  -- after every move the head is on the tape again, and only the residue of its place is known
  induction token generalizing head with
  | nil => simp [headAfter, net, Int.emod_eq_of_lt hlow hhigh]
  | cons op token ih =>
      obtain ⟨hop, hothers⟩ := List.forall_mem_cons.mp hrun
      have hsize : (0 : Int) < size := by omega
      calc headAfter size head (op :: token)
        _ = headAfter size ((head + net [op]) % size) token := by
              rw [← headAfter_of_moves hop]
              rfl
        _ = ((head + net [op]) % size + net token) % size :=
              ih hothers (Int.emod_nonneg _ (by omega)) (Int.emod_lt_of_pos _ hsize)
        _ = (head + net (op :: token)) % size := by
              rw [Int.emod_add_emod, Int.add_assoc, ← net_cons]

/-! ## A single run -/

/-- A run of moves is no run of changes. -/
theorem not_changes_of_moves (hne : token ≠ []) (hmoves : ∀ op ∈ token, op.moves = true) :
    ¬ ∀ op ∈ token, op.changes = true := by
  intro hchanges
  obtain ⟨op, hop⟩ := List.exists_mem_of_ne_nil token hne
  have hmove := hmoves op hop
  have hchange := hchanges op hop
  cases op <;> cases hmove <;> cases hchange

/-- A token that stands for a command stands for nothing else. -/
theorem Denotes.unique {c : Command} (h : Denotes token (.command c))
    (h' : Denotes token instruction) : instruction = .command c := by
  cases h with
  | write =>
      cases h' with
      | write => rfl
      | change _ hrun | move _ hrun => cases hrun _ List.mem_cons_self
  | read =>
      cases h' with
      | read => rfl
      | change _ hrun | move _ hrun => cases hrun _ List.mem_cons_self
  | change hne hrun =>
      cases h' with
      | change => rfl
      | move _ hmoves => exact absurd hrun (not_changes_of_moves hne hmoves)
      | write | read | loopStart | loopEnd => cases hrun _ List.mem_cons_self
  | move hne hrun =>
      cases h' with
      | move => rfl
      | change _ hchanges => exact absurd hchanges (not_changes_of_moves hne hrun)
      | write | read | loopStart | loopEnd => cases hrun _ List.mem_cons_self

/-- Operators of which any two stand in one run compile to the command that the run stands for. -/
theorem compile_of_denotes {c : Command} (hne : token ≠ [])
    (hrun : ∀ first ∈ token, ∀ second ∈ token, Operator.sameRun first second = true)
    (h : Denotes token (.command c)) :
    compile (Operator.toSource token) = .ok #[.command c] := by
  have hbalanced : Balanced Operator.role token := by
    refine Block.balanced_of_plain fun op hop ↦ ?_
    have hself := hrun op hop op hop
    cases op <;> first | rfl | cases hself
  have htoken : token.splitBy Operator.sameRun = [token] :=
    List.splitBy_of_isChain hne (List.pairwise_of_forall_mem_list hrun).isChain
  have hdenotes := denotes_layout hbalanced 0
  rw [htoken, List.forall₂_cons_left_iff] at hdenotes
  obtain ⟨instruction, others, hfirst, hothers, hlayout⟩ := hdenotes
  obtain rfl := h.unique hfirst
  obtain rfl := List.forall₂_nil_left_iff.mp hothers
  have hprogram : (Block.ofOperators token).assemble = #[.command c] :=
    Array.toList_inj.mp ((Block.toList_assemble _).trans hlayout)
  rw [← Source.ofText_toText, compile_toText hbalanced, hprogram]

/-- A run of changes compiles to the change that it adds up to. -/
theorem compile_change (hne : token ≠ []) (hrun : ∀ op ∈ token, op.changes = true) :
    compile (Operator.toSource token) = .ok #[.command token.change] := by
  refine compile_of_denotes hne (fun first hfirst second hsecond ↦ ?_) (.change hne hrun)
  simp [Operator.sameRun, hrun first hfirst, hrun second hsecond]

/-- A run of moves compiles to the move that it adds up to. -/
theorem compile_move (hne : token ≠ []) (hrun : ∀ op ∈ token, op.moves = true) :
    compile (Operator.toSource token) = .ok #[.command token.move] := by
  refine compile_of_denotes hne (fun first hfirst second hsecond ↦ ?_) (.move hne hrun)
  simp [Operator.sameRun, hrun first hfirst, hrun second hsecond]

/-- The offset of a run that is not too long is how far the run goes. -/
theorem signedOffset_net (hlength : token.length ≤ 2 ^ 63 - 1) :
    signedOffset (net token % pointerModulus) = net token := by
  have hle := natAbs_net_le token
  refine signedOffset_emod_eq ?_
  unfold fitsWord
  omega

/-- A run that is not too long moves the head as its operators do one at a time. -/
theorem perform_move_eq {σ ε : Type} [Device σ ε] (hrun : ∀ op ∈ token, op.moves = true)
    (hlength : token.length ≤ 2 ^ 63 - 1) {store : Store σ} (hlow : 0 ≤ store.pointer)
    (hhigh : store.pointer < store.tape.size) :
    store.perform (.move (net token % pointerModulus)) =
      (.ok (), { store with pointer := headAfter store.tape.size store.pointer token }) := by
  rw [headAfter_eq hrun hlow hhigh, Store.perform, signedOffset_net hlength]

end Token

/-- What a source that is a single run compiles to.

However long it is, a run of operators that change the cell compiles to one change. Its delta is the
cell value that represents the increments less the decrements. A run of operators that move the head
compiles to one move, whose delta is the pointer word that represents the steps to the right less
those to the left, and whose offset represents them in the range of a signed word. Where the run has
no more operators than a signed word counts, the offset is exact, and on a tape of any size the move
takes the head where the operators take it one at a time. -/
theorem compile_run {σ ε : Type} [Device σ ε] (word : Token) (hne : word ≠ []) :
    ((∀ op ∈ word, op = .increment ∨ op = .decrement) →
      ∃ delta, compile (Operator.toSource word) = .ok #[.command (.add delta)] ∧
        0 ≤ delta ∧ delta < 256 ∧
        delta ≡ (word.count .increment : Int) - word.count .decrement [ZMOD 256]) ∧
    ((∀ op ∈ word, op = .right ∨ op = .left) →
      ∃ delta, compile (Operator.toSource word) = .ok #[.command (.move delta)] ∧
        0 ≤ delta ∧ delta < 2 ^ 64 ∧
        delta ≡ (word.count .right : Int) - word.count .left [ZMOD 2 ^ 64] ∧
        -2 ^ 63 ≤ signedOffset delta ∧ signedOffset delta < 2 ^ 63 ∧
        signedOffset delta ≡ (word.count .right : Int) - word.count .left [ZMOD 2 ^ 64] ∧
        (word.length ≤ 2 ^ 63 - 1 →
          signedOffset delta = (word.count .right : Int) - word.count .left ∧
          ∀ store : Store σ, 0 ≤ store.pointer → store.pointer < store.tape.size →
            store.perform (.move delta) = (.ok (),
              { store with pointer := Token.headAfter store.tape.size store.pointer word }))) := by
  constructor
  · intro hword
    have hrun : ∀ op ∈ word, op.changes = true := by
      intro op hop
      obtain rfl | rfl := hword op hop <;> rfl
    exact ⟨_, Token.compile_change hne hrun, Int.emod_nonneg _ (by decide),
      Int.emod_lt_of_pos _ (by decide), Int.mod_modEq _ _⟩
  · intro hword
    have hrun : ∀ op ∈ word, op.moves = true := by
      intro op hop
      obtain rfl | rfl := hword op hop <;> rfl
    have hlow : 0 ≤ Token.net word % pointerModulus := Int.emod_nonneg _ (by decide)
    have hhigh : Token.net word % pointerModulus < pointerModulus :=
      Int.emod_lt_of_pos _ (by decide)
    have hresidue : Token.net word % pointerModulus ≡ Token.net word [ZMOD pointerModulus] :=
      Int.mod_modEq _ _
    have hoffset : signedOffset (Token.net word % pointerModulus) ≡
        Token.net word % pointerModulus [ZMOD pointerModulus] := signedOffset_emod_modulus _
    obtain ⟨hleast, hgreatest⟩ := signedOffset_bounds hlow hhigh
    exact ⟨_, Token.compile_move hne hrun, hlow, hhigh, hresidue, hleast, hgreatest,
      hoffset.trans hresidue, fun hlength ↦ ⟨Token.signedOffset_net hlength,
        fun store hstart hend ↦ Token.perform_move_eq hrun hlength hstart hend⟩⟩

/-- A run that changes the cell by one downwards, and one that goes one cell to the left from the
first cell of three. -/
theorem compile_run_around :
    let word : Token := [.left, .right, .left]
    let store : Store Console := ⟨Tape.blank 3 (by decide), 0, Console.ofInput []⟩
    compile (Operator.toSource [.decrement, .increment, .decrement]) =
        .ok #[.command (.add 255)] ∧
      ∃ delta, compile (Operator.toSource word) = .ok #[.command (.move delta)] ∧
        signedOffset delta = -1 ∧
        store.perform (.move delta) = (.ok (), { store with pointer := 2 }) := by
  intro word store
  obtain ⟨change, hchange, hlow, hhigh, hresidue⟩ :=
    (compile_run (σ := Console) [.decrement, .increment, .decrement] (by simp)).1 (by simp)
  obtain rfl : change = 255 := by
    have hnet : change % 256 = -1 % 256 := hresidue
    omega
  obtain ⟨delta, hmove, -, -, -, -, -, -, hexact⟩ :=
    (compile_run (σ := Console) word (by simp [word])).2 (by simp [word])
  obtain ⟨hoffset, hperform⟩ := hexact (by decide)
  have hhead : Token.headAfter store.tape.size store.pointer word = 2 := by
    show Token.headAfter (Tape.blank 3 (by decide)).size 0 word = 2
    rw [Tape.size_blank]
    rfl
  have hstore := hperform store (by decide) (by decide)
  rw [hhead] at hstore
  exact ⟨hchange, delta, hmove, hoffset, hstore⟩

end TapeMachine
