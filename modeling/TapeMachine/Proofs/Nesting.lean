/-!
# Nested brackets

What it means that the brackets of a sequence pair up, for any kind of symbols. `Balanced` builds
the sequences from the inside out. `partnerDistance` finds a partner by counting the brackets
that are open meanwhile; that the two agree, `partnerDistance_closing`, makes partners unique.

Symbols take part through their `Role` only, so the same laws hold of source bytes, operators and
instructions, and of each of them read from its end.
-/

namespace TapeMachine

/-- The part that a symbol plays in the nesting of a sequence. -/
inductive Role where
  | plain
  | opening
  | closing
deriving DecidableEq, Inhabited

/-- The part that a symbol plays where the sequence is read from its end. -/
def Role.mirror : Role → Role
  | plain => plain
  | opening => closing
  | closing => opening

variable {α β : Type}

/-- Sequences whose brackets pair up: nothing, a plain symbol in front of such a sequence, or a
pair of brackets around one in front of another. -/
inductive Balanced (role : α → Role) : List α → Prop where
  | nil : Balanced role []
  | plain {a : α} {rest : List α} (ha : role a = .plain) (hrest : Balanced role rest) :
      Balanced role (a :: rest)
  | pair {a z : α} {body rest : List α} (ha : role a = .opening) (hbody : Balanced role body)
      (hz : role z = .closing) (hrest : Balanced role rest) :
      Balanced role (a :: (body ++ z :: rest))

/-- What a symbol of this role adds to the number of open brackets. -/
def Role.weight : Role → Int
  | plain => 0
  | opening => 1
  | closing => -1

/-- How many more brackets a sequence opens than it closes. -/
def surplus (role : α → Role) : List α → Int
  | [] => 0
  | a :: rest => (role a).weight + surplus role rest

/-- The number of symbols in front of the bracket that closes one opened before the sequence,
where `depth` more brackets are open: every opening bracket adds one to them and every other
closing bracket takes one off. -/
def partnerDistance (role : α → Role) : Nat → List α → Nat
  | _, [] => 0
  | depth, a :: rest =>
      match role a, depth with
      | .plain, _ => partnerDistance role depth rest + 1
      | .opening, _ => partnerDistance role (depth + 1) rest + 1
      | .closing, 0 => 0
      | .closing, outer + 1 => partnerDistance role outer rest + 1

/-- Where two different elements stand in one list, one of them is in front of the other. -/
theorem append_cons_cases {a y : α} {inner tail before after : List α} (hne : a ≠ y)
    (heq : inner ++ y :: tail = before ++ a :: after) :
    (∃ shared, before = inner ++ y :: shared ∧ tail = shared ++ a :: after) ∨
      ∃ shared, inner = before ++ a :: shared ∧ after = shared ++ y :: tail := by
  obtain ⟨shared, rfl, h⟩ | ⟨shared, rfl, h⟩ := List.append_eq_append_iff.mp heq
  · cases shared with
    | nil =>
        cases h
        exact absurd rfl hne
    | cons _ shared =>
        obtain ⟨rfl, rfl⟩ := List.cons.inj h
        exact .inl ⟨shared, rfl, rfl⟩
  · cases shared with
    | nil =>
        cases h
        exact absurd rfl hne
    | cons _ shared =>
        obtain ⟨rfl, rfl⟩ := List.cons.inj h
        exact .inr ⟨shared, rfl, rfl⟩

/-- An element of a list has as many others in front of it as its index says. -/
theorem exists_eq_append_of_getElem? {a : α} {symbols : List α} {i : Nat}
    (h : symbols[i]? = some a) : ∃ before after, symbols = before ++ a :: after ∧
      before.length = i := by
  obtain ⟨hlt, rfl⟩ := List.getElem?_eq_some_iff.mp h
  refine ⟨symbols.take i, symbols.drop (i + 1), ?_, List.length_take_of_le (Nat.le_of_lt hlt)⟩
  rw [← List.drop_eq_getElem_cons hlt, List.take_append_drop]

/-- The index of the second of two elements, by what stands in front of it. -/
theorem getElem?_of_eq_append {a z : α} {symbols before body after : List α}
    (h : symbols = before ++ a :: (body ++ z :: after)) :
    symbols[before.length + body.length + 1]? = some z := by
  have hsplit : symbols = (before ++ a :: body) ++ z :: after := by simp [h]
  have hlength : before.length + body.length + 1 = (before ++ a :: body).length := by
    simp [Nat.add_assoc]
  rw [hsplit, hlength, List.getElem?_append_right (Nat.le_refl _), Nat.sub_self]
  rfl

variable {role : α → Role} {a z : α} {body rest : List α}

@[simp] theorem surplus_nil (role : α → Role) : surplus role [] = 0 :=
  rfl

@[simp] theorem surplus_cons (role : α → Role) (a : α) (rest : List α) :
    surplus role (a :: rest) = (role a).weight + surplus role rest :=
  rfl

@[simp] theorem surplus_append (role : α → Role) (first second : List α) :
    surplus role (first ++ second) = surplus role first + surplus role second := by
  induction first with
  | nil => simp
  | cons a first ih => rw [List.cons_append, surplus_cons, surplus_cons, ih, Int.add_assoc]

namespace Balanced

/-- Balanced sequences can stand side by side. -/
theorem append (h : Balanced role body) (hrest : Balanced role rest) :
    Balanced role (body ++ rest) := by
  induction h with
  | nil => exact hrest
  | plain ha _ ih => exact .plain ha ih
  | pair ha hbody hz _ _ ih =>
      rw [List.cons_append, List.append_assoc, List.cons_append]
      exact .pair ha hbody hz ih

/-- Read from its end, with the brackets taken the other way round, a balanced sequence is
balanced too. -/
theorem mirror (h : Balanced role body) :
    Balanced (fun a ↦ (role a).mirror) body.reverse := by
  induction h with
  | nil => exact .nil
  | plain ha _ ih =>
      rw [List.reverse_cons]
      exact ih.append (.plain (by rw [ha]; rfl) .nil)
  | @pair a z body rest ha _ hz _ ihBody ihRest =>
      have hreverse : (a :: (body ++ z :: rest)).reverse =
          rest.reverse ++ (z :: (body.reverse ++ a :: [])) := by simp
      rw [hreverse]
      exact ihRest.append (.pair (by rw [hz]; rfl) ihBody (by rw [ha]; rfl) .nil)

/-- Leaving out plain symbols, and replacing the others by symbols of the same role, keeps a
sequence balanced. -/
theorem filterMap {role' : β → Role} {f : α → Option β}
    (hrole : ∀ a, (∃ b, f a = some b ∧ role' b = role a) ∨ f a = none ∧ role a = .plain)
    (h : Balanced role body) : Balanced role' (body.filterMap f) := by
  induction h with
  | nil => exact .nil
  | @plain a rest ha _ ih =>
      obtain ⟨b, hb, hsame⟩ | ⟨hnone, _⟩ := hrole a
      · rw [List.filterMap_cons_some hb]
        exact .plain (hsame.trans ha) ih
      · rw [List.filterMap_cons_none hnone]
        exact ih
  | @pair a z body rest ha _ hz _ ihBody ihRest =>
      obtain ⟨b, hb, hopen⟩ | ⟨_, hplain⟩ := hrole a
      · obtain ⟨y, hy, hclose⟩ | ⟨_, hplain⟩ := hrole z
        · rw [List.filterMap_cons_some hb, List.filterMap_append, List.filterMap_cons_some hy]
          exact .pair (hopen.trans ha) ihBody (hclose.trans hz) ihRest
        · cases hz.symm.trans hplain
      · cases ha.symm.trans hplain

/-- Whether a sequence is balanced depends on the roles of its symbols only. -/
theorem map {role' : β → Role} {f : α → β} (hrole : ∀ a, role' (f a) = role a)
    (h : Balanced role body) : Balanced role' (body.map f) := by
  rw [← List.filterMap_eq_map]
  exact h.filterMap fun a ↦ .inl ⟨f a, rfl, hrole a⟩

/-- A balanced sequence closes as many brackets as it opens. -/
theorem surplus_eq (h : Balanced role body) : surplus role body = 0 := by
  induction h with
  | nil => rfl
  | plain ha _ ih => simp [ha, ih, Role.weight]
  | pair ha _ hz _ ihBody ihRest => simp [ha, hz, ihBody, ihRest, Role.weight]

/-- No first part of a balanced sequence closes more brackets than it opens. -/
theorem surplus_take_nonneg (h : Balanced role body) (count : Nat) :
    0 ≤ surplus role (body.take count) := by
  induction h generalizing count with
  | nil => simp
  | plain ha _ ih =>
      cases count with
      | zero => simp
      | succ count =>
          have hrest := ih count
          simpa [ha, Role.weight] using hrest
  | @pair a z body rest ha hbody hz _ ihBody ihRest =>
      cases count with
      | zero => simp
      | succ count =>
          have hinner := ihBody count
          rw [List.take_succ_cons, surplus_cons, ha, List.take_append, surplus_append, Role.weight]
          cases hpast : count - body.length with
          | zero =>
              rw [List.take_zero, surplus_nil]
              omega
          | succ past =>
              have hrest := ihRest past
              rw [List.take_of_length_le (by omega), hbody.surplus_eq, List.take_succ_cons,
                surplus_cons, hz, Role.weight]
              omega

/-- Counting brackets, nothing has changed behind a balanced sequence. -/
theorem partnerDistance_append (h : Balanced role body) (depth : Nat) :
    partnerDistance role depth (body ++ rest) =
      body.length + partnerDistance role depth rest := by
  induction h generalizing depth rest with
  | nil => simp
  | plain ha _ ih =>
      simp only [List.cons_append, partnerDistance, ha, ih, List.length_cons]
      omega
  | pair ha _ hz _ ihBody ihRest =>
      simp only [List.cons_append, List.append_assoc, partnerDistance, ha, hz, ihBody, ihRest,
        List.length_cons, List.length_append]
      omega

/-- The closing bracket behind a balanced sequence is found where it stands. -/
theorem partnerDistance_closing (h : Balanced role body) (hz : role z = .closing) :
    partnerDistance role 0 (body ++ z :: rest) = body.length := by
  rw [h.partnerDistance_append]
  simp [partnerDistance, hz]

/-- At most one closing bracket of a sequence has a balanced sequence in front of it. -/
theorem closing_unique {z' : α} {body' rest' : List α} (h : Balanced role body)
    (hz : role z = .closing) (h' : Balanced role body') (hz' : role z' = .closing)
    (heq : body ++ z :: rest = body' ++ z' :: rest') :
    body = body' ∧ z = z' ∧ rest = rest' := by
  have hfound : partnerDistance role 0 (body ++ z :: rest) = body.length :=
    h.partnerDistance_closing hz
  have hlength : body.length = body'.length := by
    rw [← hfound, heq, h'.partnerDistance_closing hz']
  obtain ⟨hbody, htail⟩ := List.append_inj heq hlength
  cases htail
  exact ⟨hbody, rfl, rfl⟩

/-- Every opening bracket of a balanced sequence has a partner. -/
theorem exists_closing {symbols before after : List α} (h : Balanced role symbols)
    (ha : role a = .opening) (heq : symbols = before ++ a :: after) :
    ∃ body z rest, after = body ++ z :: rest ∧ Balanced role body ∧ role z = .closing := by
  induction h generalizing before after with
  | nil => simp at heq
  | @plain b tail hb _ ih =>
      cases before with
      | nil =>
          cases heq
          cases ha.symm.trans hb
      | cons => exact ih (List.cons.inj heq).2
  | @pair b y inner tail hb hinner hy _ ihInner ihTail =>
      cases before with
      | nil =>
          cases heq
          exact ⟨inner, y, tail, rfl, hinner, hy⟩
      | cons _ before =>
          have hne : a ≠ y := by
            rintro rfl
            cases ha.symm.trans hy
          obtain ⟨shared, _, htail⟩ | ⟨shared, hinside, rfl⟩ :=
            append_cons_cases hne (List.cons.inj heq).2
          · exact ihTail htail
          · obtain ⟨body, z, rest, rfl, hbody, hz⟩ := ihInner hinside
            exact ⟨body, z, rest ++ y :: tail, by simp, hbody, hz⟩

/-- Every closing bracket of a balanced sequence has a partner. -/
theorem exists_opening {symbols before after : List α} (h : Balanced role symbols)
    (hz : role z = .closing) (heq : symbols = before ++ z :: after) :
    ∃ front a body, before = front ++ a :: body ∧ role a = .opening ∧ Balanced role body := by
  have hmirror : ∀ part : Role, part.mirror.mirror = part := by
    intro part
    cases part <;> rfl
  have hreverse : symbols.reverse = after.reverse ++ z :: before.reverse := by simp [heq]
  obtain ⟨body, a, rest, hbefore, hbody, ha⟩ := h.mirror.exists_closing (by rw [hz]; rfl) hreverse
  refine ⟨rest.reverse, a, body.reverse, ?_, ?_, ?_⟩
  · rw [← List.reverse_reverse before, hbefore]
    simp
  · rw [← hmirror (role a), ha]
    rfl
  · have hback := hbody.mirror
    simpa only [hmirror] using hback

end Balanced

/-- The symbols at two positions are an opening bracket and the closing bracket that is its
partner: what stands between them is balanced. -/
def Partners (role : α → Role) (symbols : List α) (first second : Nat) : Prop :=
  ∃ before a body z after, symbols = before ++ a :: (body ++ z :: after) ∧
    role a = .opening ∧ Balanced role body ∧ role z = .closing ∧
    first = before.length ∧ second = before.length + body.length + 1

/-- Partners are an opening and a closing bracket. -/
theorem Partners.getElem? {symbols : List α} {first second : Nat}
    (h : Partners role symbols first second) :
    (∃ a, symbols[first]? = some a ∧ role a = .opening) ∧
      ∃ z, symbols[second]? = some z ∧ role z = .closing := by
  obtain ⟨before, a, body, z, after, rfl, ha, _, hz, rfl, rfl⟩ := h
  exact ⟨⟨a, by simp, ha⟩, z, getElem?_of_eq_append rfl, hz⟩

/-- An opening bracket stands in front of its partner. -/
theorem Partners.lt {symbols : List α} {first second : Nat}
    (h : Partners role symbols first second) : first < second := by
  obtain ⟨_, _, _, _, _, _, _, _, _, rfl, rfl⟩ := h
  omega

/-- From an opening bracket to its partner, a sequence closes as many brackets as it opens. -/
theorem Partners.surplus_eq {symbols : List α} {first second : Nat}
    (h : Partners role symbols first second) :
    surplus role ((symbols.take (second + 1)).drop first) = 0 := by
  obtain ⟨before, a, body, z, after, rfl, ha, hbody, hz, rfl, rfl⟩ := h
  have hlength : before.length + body.length + 1 + 1 - before.length = body.length + 1 + 1 := by
    omega
  rw [List.drop_take, List.drop_left, hlength, List.take_succ_cons, surplus_cons,
    List.take_length_add_append, surplus_append, hbody.surplus_eq]
  simp [ha, hz, Role.weight]

/-- From an opening bracket up to anything in front of its partner, a sequence opens more brackets
than it closes. -/
theorem Partners.surplus_pos {symbols : List α} {first second between : Nat}
    (h : Partners role symbols first second) (hfirst : first ≤ between)
    (hsecond : between < second) :
    0 < surplus role ((symbols.take (between + 1)).drop first) := by
  obtain ⟨before, a, body, z, after, rfl, ha, hbody, hz, rfl, rfl⟩ := h
  obtain ⟨count, rfl⟩ := Nat.exists_eq_add_of_le hfirst
  have hlength : before.length + count + 1 - before.length = count + 1 := by omega
  have hinside := hbody.surplus_take_nonneg count
  rw [List.drop_take, List.drop_left, hlength, List.take_succ_cons, surplus_cons,
    List.take_append_of_le_length (by omega), ha, Role.weight]
  omega

/-- A closing bracket of a balanced sequence has a partner, whatever follows the sequence. -/
theorem Balanced.exists_partners_closing {i : Nat} (h : Balanced role body)
    (hi : body[i]? = some z) (hz : role z = .closing) (rest : List α) :
    ∃ first, Partners role (body ++ rest) first i := by
  obtain ⟨before, after, heq, rfl⟩ := exists_eq_append_of_getElem? hi
  obtain ⟨front, a, inner, rfl, ha, hinner⟩ := h.exists_opening hz heq
  refine ⟨front.length, front, a, inner, z, after ++ rest, ?_, ha, hinner, hz, rfl, ?_⟩
  · simp [heq]
  · simp [Nat.add_assoc]

/-- An opening bracket of a balanced sequence has a partner, whatever precedes the sequence. -/
theorem Balanced.exists_partners_opening {i : Nat} (h : Balanced role body)
    (hi : body[i]? = some a) (ha : role a = .opening) (front : List α) :
    ∃ second, Partners role (front ++ body) (front.length + i) second := by
  obtain ⟨before, after, heq, rfl⟩ := exists_eq_append_of_getElem? hi
  obtain ⟨inner, z, tail, rfl, hinner, hz⟩ := h.exists_closing ha heq
  refine ⟨_, front ++ before, a, inner, z, tail, ?_, ha, hinner, hz, ?_, rfl⟩
  · simp [heq]
  · simp

/-- Sequences that close `count` brackets opened before them and are balanced otherwise. -/
def Closes (role : α → Role) : Nat → List α → Prop
  | 0, symbols => Balanced role symbols
  | count + 1, symbols =>
      ∃ body z rest, symbols = body ++ z :: rest ∧ Balanced role body ∧ role z = .closing ∧
        Closes role count rest

namespace Closes

variable {count : Nat} {symbols : List α}

/-- What stands in front of the first of these closing brackets can be made longer by a balanced
sequence. -/
theorem append (hbody : Balanced role body) (h : Closes role count symbols) :
    Closes role count (body ++ symbols) := by
  cases count with
  | zero => exact hbody.append h
  | succ count =>
      obtain ⟨inner, z, rest, rfl, hinner, hz, hrest⟩ := h
      exact ⟨body ++ inner, z, rest, by simp, hbody.append hinner, hz, hrest⟩

/-- A plain symbol in front closes nothing and opens nothing. -/
theorem cons_plain (ha : role a = .plain) (h : Closes role count symbols) :
    Closes role count (a :: symbols) :=
  h.append (.plain ha .nil)

/-- An opening bracket in front takes one of the closing brackets as its partner. -/
theorem cons_opening (ha : role a = .opening) (h : Closes role (count + 1) symbols) :
    Closes role count (a :: symbols) := by
  obtain ⟨inner, z, rest, rfl, hinner, hz, hrest⟩ := h
  have hpair : Balanced role (a :: (inner ++ [z])) := .pair ha hinner hz .nil
  simpa using hrest.append hpair

/-- A closing bracket in front is one more of them. -/
theorem cons_closing (ha : role a = .closing) (h : Closes role count symbols) :
    Closes role (count + 1) (a :: symbols) :=
  ⟨[], a, symbols, rfl, .nil, ha, h⟩

end Closes

end TapeMachine
