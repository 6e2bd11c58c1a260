import Reckoner.Proofs.Expr.Listing
import Reckoner.Proofs.Postfix.Symbols

/-!
# The calls of a fold

A fold calls its folder for the nodes of a tree in post-order, left operands first, and stops after
the first call that fails (`Expr.calls_postorder`).  What a call is asked contains the answers of
the calls for its own operands: it is the entry of the node in the listing of the tree, with each
position replaced by the answer of the call at this position.  A fold in which no call fails has
called for every node, and the symbols of the nodes then say which tree it was.

Calls are noted together with their answers (`transcribed`).  The induction adds the calls for a
tree to those noted before, and what it carries (`Expr.Traced`) holds for every way of looking
answers up that finds the answers noted so far, so that it need not be changed when further calls
are noted.
-/

namespace Reckoner

variable {σ ε α : Type}

/-! ## Calls -/

/-- A question that a folder was asked, and its answer. -/
structure Call (ε α : Type) where
  question : Node α
  answer : Except ε α

def Call.Succeeds (c : Call ε α) : Prop := ∃ a, c.answer = .ok a

/-- The same folder, noting every question together with its answer. -/
def transcribed (f : Folder σ ε α) : Folder (List (Call ε α) × σ) ε α :=
  fun node (calls, s) =>
    let (answer, s) := f node s
    (answer, (calls ++ [⟨node, answer⟩], s))

/-- The questions of some calls. -/
def asked (calls : List (Call ε α)) : List (Option (Node α)) :=
  calls.map fun c => some c.question

/-- The answers of some calls, with nothing in the place of a failure. -/
def answers (calls : List (Call ε α)) : List (Option α) := calls.map fun c => c.answer.toOption

/-- The answer at a position, if there is a call at it and it succeeded. -/
def answerAt (calls : List (Call ε α)) (i : Nat) : Option α :=
  calls[i]?.bind fun c => c.answer.toOption

/-- Answers are found at the positions of their calls. -/
theorem finds_answerAt (calls : List (Call ε α)) : Finds (answerAt calls) (answers calls) := by
  intro i a h
  rw [answers, List.getElem?_map, Option.map_eq_some_iff] at h
  obtain ⟨c, hc, ha⟩ := h
  rw [answerAt, hc]
  exact ha

/-- What is found among all calls is found among the earlier ones. -/
theorem Finds.earlier {look : Nat → Option α} {earlier later : List (Call ε α)}
    (h : Finds look (answers (earlier ++ later))) : Finds look (answers earlier) := by
  rw [answers, List.map_append] at h
  exact h.left

/-- The answer of the latest call is found at the position behind all others. -/
theorem Finds.latest {look : Nat → Option α} {earlier : List (Call ε α)} {question : Node α} {a : α}
    (h : Finds look (answers (earlier ++ [⟨question, .ok a⟩]))) : look earlier.length = some a := by
  apply h
  simp [answers, Except.toOption]

/-! ## Calls for a part of a listing -/

/-- Whether some calls, noted behind others, asked all of a part of a listing and all succeeded. -/
structure Covers (before calls : List (Call ε α)) (part : List (Node Nat)) : Prop where
  succeed : ∀ c ∈ calls, c.Succeeds
  asks : ∀ look, Finds look (answers (before ++ calls)) →
    asked calls = part.map (Node.resolve look)

/-- No calls cover nothing. -/
theorem covers_nil (before : List (Call ε α)) : Covers before [] [] where
  succeed := by
    intro c hc
    cases hc
  asks := by
    intro look _
    rfl

/-- Calls for one part and then for the next one cover both. -/
theorem Covers.append {before earlier later : List (Call ε α)} {part rest : List (Node Nat)}
    (h : Covers before earlier part) (h' : Covers (before ++ earlier) later rest) :
    Covers before (earlier ++ later) (part ++ rest) where
  succeed := List.forall_mem_append.mpr ⟨h.succeed, h'.succeed⟩
  asks := by
    intro look hlook
    -- What is found among all calls is found among the first ones.
    rw [← List.append_assoc] at hlook
    rw [asked, List.map_append, ← asked, ← asked, h.asks look hlook.earlier,
      h'.asks look hlook, List.map_append]

/-- There is one call for every entry. -/
theorem Covers.length_eq {before calls : List (Call ε α)} {part : List (Node Nat)}
    (h : Covers before calls part) : calls.length = part.length := by
  have hasked := congrArg List.length (h.asks _ (finds_answerAt (before ++ calls)))
  simpa [asked] using hasked

namespace Expr

/-! ## The invariant -/

/-- What is known of the calls for a tree when its fold has ended with an answer or a failure: they
asked for the listing of the tree from its start, all of it unless the last call failed, which is
the one that ended the fold. -/
structure Recorded (look : Nat → Option α) (e : Expr) (start : Nat) (calls : List (Call ε α))
    (answer : Except ε α) : Prop where
  asks : asked calls <+: (e.listing start).map (Node.resolve look)
  last : ∃ earlier question, calls = earlier ++ [⟨question, answer⟩] ∧ ∀ c ∈ earlier, c.Succeeds
  complete : ∀ a, answer = .ok a → calls.length = e.postorder.length

/-- Whether a fold of a tree has noted the calls for the tree behind those noted before. -/
def Traced (e : Expr) (before : List (Call ε α))
    (result : Except ε α × (List (Call ε α) × σ)) : Prop :=
  ∃ calls, result.2.1 = before ++ calls ∧
    ∀ look, Finds look (answers (before ++ calls)) →
      e.Recorded look before.length calls result.1

/-- The calls of a fold that has returned an answer cover the listing of its tree. -/
theorem Recorded.covers {e : Expr} {before calls : List (Call ε α)} {a : α}
    (h : ∀ look, Finds look (answers (before ++ calls)) →
      e.Recorded look before.length calls (.ok a)) :
    Covers before calls (e.listing before.length) where
  succeed := by
    obtain ⟨earlier, question, rfl, hearlier⟩ := (h _ (finds_answerAt _)).last
    exact List.forall_mem_append.mpr ⟨hearlier, List.forall_mem_singleton.mpr ⟨a, rfl⟩⟩
  asks := by
    intro look hlook
    -- Nothing is missing, as there are as many calls as entries.
    apply (h look hlook).asks.eq_of_length
    rw [List.length_map, length_listing, asked, List.length_map]
    exact (h look hlook).complete a rfl

/-- The answer of a fold is found at the position of the root. -/
theorem Recorded.look_rootPosition {look : Nat → Option α} {e : Expr}
    {before calls : List (Call ε α)} {a : α} (h : e.Recorded look before.length calls (.ok a))
    (hlook : Finds look (answers (before ++ calls))) :
    look (rootPosition before.length e) = some a := by
  -- The root is asked last, and its answer is that of the fold.
  obtain ⟨earlier, question, rfl, -⟩ := h.last
  have hlength := h.complete a rfl
  rw [← List.append_assoc] at hlook
  have hposition : rootPosition before.length e = (before ++ earlier).length := by
    rw [rootPosition, ← hlength]
    simp
  rw [hposition]
  exact hlook.latest

/-- Calls for the listing up to an operand are followed by those for the operand.  A failure among
these ends the whole fold. -/
theorem Traced.andThen {e operand : Expr} {before earlier : List (Call ε α)}
    {part : List (Node Nat)}
    (hlisting : part ++ operand.listing (before ++ earlier).length <+: e.listing before.length)
    (hearlier : Covers before earlier part) {attempt : Except ε α × (List (Call ε α) × σ)}
    (h : operand.Traced (before ++ earlier) attempt)
    {next : α → List (Call ε α) × σ → Except ε α × (List (Call ε α) × σ)}
    (hnext : ∀ a calls t,
      Covers (before ++ earlier) calls (operand.listing (before ++ earlier).length) →
      (∀ look, Finds look (answers (before ++ earlier ++ calls)) →
        look (rootPosition (before ++ earlier).length operand) = some a) →
      e.Traced before (next a (before ++ earlier ++ calls, t))) :
    e.Traced before (Reckoner.andThen attempt next) := by
  obtain ⟨answer, all, t⟩ := attempt
  obtain ⟨calls, hall, hrecorded⟩ := h
  simp only at hall hrecorded
  subst hall
  cases answer with
  -- The fold goes on behind the calls for the operand.
  | ok a =>
    apply hnext a calls t (Recorded.covers hrecorded)
    intro look hlook
    exact (hrecorded look hlook).look_rootPosition hlook
  | error x =>
    -- The calls for the operand stop at the failure, and no call for the node follows.
    refine ⟨earlier ++ calls, ?_, ?_⟩
    · exact List.append_assoc before earlier calls
    intro look hlook
    rw [← List.append_assoc] at hlook
    have hoperand := hrecorded look hlook
    constructor
    case asks =>
      -- What was asked is the part in front of the operand, and as much of the operand as was come
      -- to.
      refine List.IsPrefix.trans ?_ (hlisting.map (Node.resolve look))
      rw [List.map_append, asked, List.map_append, ← asked, ← asked,
        hearlier.asks look hlook.earlier]
      exact (List.prefix_append_right_inj _).mpr hoperand.asks
    case last =>
      obtain ⟨others, question, rfl, hothers⟩ := hoperand.last
      refine ⟨earlier ++ others, question, (List.append_assoc _ _ _).symm, ?_⟩
      exact List.forall_mem_append.mpr ⟨hearlier.succeed, hothers⟩
    case complete =>
      intro a ha
      cases ha

/-- Once the calls for all operands have succeeded, the call for the node is the last one. -/
theorem traced_node (f : Folder σ ε α) {e : Expr} {before below : List (Call ε α)}
    {part : List (Node Nat)} {entry : Node Nat}
    (hlisting : e.listing before.length = part ++ [entry]) (hbelow : Covers before below part)
    {question : Node α}
    (hquestion : ∀ look, Finds look (answers (before ++ below)) →
      entry.resolve look = some question) (s : σ) :
    e.Traced before (transcribed f question (before ++ below, s)) := by
  refine ⟨below ++ [⟨question, (f question s).1⟩], ?_, ?_⟩
  · exact List.append_assoc _ _ _
  intro look hlook
  rw [← List.append_assoc] at hlook
  -- The entries in front have been asked for, and the last one is the node itself.
  have hasked : asked (below ++ [⟨question, (f question s).1⟩]) =
      (e.listing before.length).map (Node.resolve look) := by
    rw [hlisting, List.map_append, asked, List.map_append, ← asked,
      hbelow.asks look hlook.earlier, List.map_singleton, List.map_singleton,
      hquestion look hlook.earlier]
  constructor
  case asks => exact ⟨[], (List.append_nil _).trans hasked⟩
  case last => exact ⟨below, question, rfl, hbelow.succeed⟩
  case complete =>
    intro a _
    have hlength := congrArg List.length hasked
    rwa [asked, List.length_map, List.length_map, length_listing] at hlength

/-! ## Calls for whole trees -/

/-- The calls for a node with one operand are those for the operand, and one more. -/
private theorem traced_unary (f : Folder σ ε α) {e operand : Expr} {before : List (Call ε α)}
    (node : ∀ {β : Type}, β → Node β)
    (hresolve : ∀ (look : Nat → Option α) i, (node i).resolve look = (look i).map node)
    (hlisting : e.listing before.length =
      operand.listing before.length ++ [node (rootPosition before.length operand)])
    {attempt : Except ε α × (List (Call ε α) × σ)} (h : operand.Traced before attempt) :
    e.Traced before (andThen attempt fun a s => transcribed f (node a) s) := by
  -- No calls stand between those noted before and those for the operand.
  rw [← List.append_nil before] at h
  refine Traced.andThen ?_ (covers_nil before) h ?_
  · rw [List.append_nil, hlisting]
    exact List.prefix_append _ _
  intro a calls t hcalls hroot
  rw [List.append_nil] at hcalls hroot ⊢
  refine traced_node f hlisting hcalls ?_ t
  intro look hlook
  rw [hresolve, hroot look hlook]
  rfl

/-- The calls for a node with two operands are those for the left one, those for the right one,
and one more. -/
private theorem traced_binary (f : Folder σ ε α) {e l r : Expr} {before : List (Call ε α)}
    (node : ∀ {β : Type}, β → β → Node β)
    (hresolve : ∀ (look : Nat → Option α) i j,
      (node i j).resolve look = (look i).bind fun a => (look j).map (node a))
    (hlisting : e.listing before.length =
      l.listing before.length ++ r.listing (before.length + l.postorder.length) ++
        [node (rootPosition before.length l)
          (rootPosition (before.length + l.postorder.length) r)])
    {attempt : Except ε α × (List (Call ε α) × σ)} (hl : l.Traced before attempt)
    {next : List (Call ε α) × σ → Except ε α × (List (Call ε α) × σ)}
    (hr : ∀ now s, r.Traced now (next (now, s))) :
    e.Traced before (andThen attempt fun a s =>
      andThen (next s) fun b s => transcribed f (node a b) s) := by
  rw [← List.append_nil before] at hl
  refine Traced.andThen ?_ (covers_nil before) hl ?_
  · rw [List.append_nil, hlisting, List.append_assoc]
    exact List.prefix_append _ _
  intro a calls s hleft hleftRoot
  rw [List.append_nil] at hleft hleftRoot ⊢
  have hlength : (before ++ calls).length = before.length + l.postorder.length := by
    rw [List.length_append, hleft.length_eq, length_listing]
  -- The listing of the right operand starts where the calls for the left one have ended.
  rw [← hlength] at hlisting
  refine Traced.andThen ?_ hleft (hr (before ++ calls) s) ?_
  · rw [hlisting]
    exact List.prefix_append _ _
  intro b more t hright hrightRoot
  rw [List.append_assoc] at hrightRoot ⊢
  refine traced_node f hlisting (hleft.append hright) ?_ t
  intro look hlook
  have hlook' := hlook
  rw [← List.append_assoc] at hlook'
  rw [hresolve, hleftRoot look hlook'.earlier, hrightRoot look hlook]
  rfl

/-- Every fold notes the calls for its tree, wherever it stops. -/
theorem traced_fold (f : Folder σ ε α) (e : Expr) (before : List (Call ε α)) (s : σ) :
    e.Traced before (e.fold (transcribed f) (before, s)) := by
  -- The calls for an operand come after those noted so far, and the state goes on from them.
  induction e generalizing before s with
  | constant v =>
    have hnode : (constant v).Traced before (transcribed f (.constant v) (before ++ [], s)) :=
      traced_node f rfl (covers_nil before) (fun _ _ => rfl) s
    rwa [List.append_nil] at hnode
  | negate e ih => exact traced_unary f .negate (fun _ _ => rfl) rfl (ih before s)
  | exponent b n ih => exact traced_unary f (.exponent · n) (fun _ _ => rfl) rfl (ih before s)
  | addition l r ihl ihr =>
    exact traced_binary f .addition (fun _ _ _ => rfl) rfl (ihl before s) ihr
  | multiplication l r ihl ihr =>
    exact traced_binary f .multiplication (fun _ _ _ => rfl) rfl (ihl before s) ihr

/-! ## The calls of a fold -/

/-- The calls that the recursive fold makes, in order. -/
def calls (f : Folder σ ε α) (e : Expr) (s : σ) : List (Call ε α) :=
  (e.fold (transcribed f) ([], s)).2.1

/-- The calls that the stack machine makes, in order. -/
def callsStack (f : Folder σ ε α) (e : Expr) (s : σ) : List (Call ε α) :=
  (e.foldStack (transcribed f) ([], s)).2.1

/-- Noting the calls changes neither the answer nor the states of a folder. -/
theorem fold_transcribed (f : Folder σ ε α) (e : Expr) (noted : List (Call ε α)) (s : σ) :
    Prod.map id Prod.snd (e.fold (transcribed f) (noted, s)) = e.fold f s :=
  fold_map Prod.snd (fun _ _ => rfl) e (noted, s)

/-- The calls with the answer of the fold are those for its tree. -/
theorem recorded_calls (f : Folder σ ε α) (e : Expr) (s : σ) {look : Nat → Option α}
    (hlook : Finds look (answers (e.calls f s))) :
    e.Recorded look 0 (e.calls f s) (e.fold f s).1 := by
  obtain ⟨calls, hcalls, hrecorded⟩ := traced_fold f e [] s
  have hanswer := congrArg Prod.fst (fold_transcribed f e [] s)
  rw [← hanswer, Expr.calls, hcalls]
  apply hrecorded
  rwa [Expr.calls, hcalls] at hlook

variable {look : Nat → Option α} {e : Expr} {start : Nat} {calls : List (Call ε α)}
  {answer : Except ε α}

/-- A fold succeeds just if no call fails. -/
theorem Recorded.succeeds_iff (h : e.Recorded look start calls answer) :
    (∃ a, answer = .ok a) ↔ ∀ c ∈ calls, c.Succeeds := by
  -- The calls before the last one have succeeded in any case.
  obtain ⟨earlier, question, rfl, hearlier⟩ := h.last
  constructor
  · intro hanswer
    exact List.forall_mem_append.mpr ⟨hearlier, List.forall_mem_singleton.mpr hanswer⟩
  · intro hall
    exact hall ⟨question, answer⟩ (by simp)

/-- Only the last call can have failed. -/
theorem Recorded.nil_of_fails (h : e.Recorded look start calls answer)
    {before after : List (Call ε α)} {c : Call ε α} (hcalls : calls = before ++ c :: after)
    (hc : ¬c.Succeeds) : after = [] := by
  obtain ⟨earlier, question, rfl, hearlier⟩ := h.last
  rcases List.eq_nil_or_concat after with rfl | ⟨others, final, rfl⟩
  · rfl
  -- If there were a call behind the failure, the failure would be one of the earlier calls.
  have hall : earlier ++ [⟨question, answer⟩] = (before ++ c :: others) ++ [final] := by
    rw [hcalls, List.append_assoc, List.cons_append, List.concat_eq_append]
  have hmem : c ∈ earlier := by
    rw [(List.append_inj' hall rfl).1]
    simp
  exact absurd (hearlier c hmem) hc

/-- If all calls succeed, there is one for every node. -/
theorem Recorded.length_eq_size (h : e.Recorded look start calls answer)
    (hall : ∀ c ∈ calls, c.Succeeds) : calls.length = e.size := by
  obtain ⟨a, ha⟩ := h.succeeds_iff.mpr hall
  rw [h.complete a ha, size_eq_length_postorder]

/-- The last call has the answer of the fold. -/
theorem Recorded.getLast?_eq (h : e.Recorded look start calls answer) :
    calls.getLast?.map Call.answer = some answer := by
  obtain ⟨earlier, question, rfl, -⟩ := h.last
  rw [List.getLast?_concat]
  rfl

/-! ## Symbols of calls -/

/-- The symbols of the nodes that some calls asked for. -/
def symbols (calls : List (Call ε α)) : List String := calls.map fun c => c.question.symbol

/-- A symbol does not tell what the operands of its node are. -/
private theorem symbol_of_resolve {entry : Node Nat} {question : Node α}
    (h : entry.resolve look = some question) : question.symbol = entry.symbol := by
  cases entry with
  | constant v =>
    cases h
    rfl
  | negate i =>
    obtain ⟨a, -, rfl⟩ := Option.map_eq_some_iff.mp h
    rfl
  | exponent i n =>
    obtain ⟨a, -, rfl⟩ := Option.map_eq_some_iff.mp h
    rfl
  | addition i j =>
    obtain ⟨a, -, h⟩ := Option.bind_eq_some_iff.mp h
    obtain ⟨b, -, rfl⟩ := Option.map_eq_some_iff.mp h
    rfl
  | multiplication i j =>
    obtain ⟨a, -, h⟩ := Option.bind_eq_some_iff.mp h
    obtain ⟨b, -, rfl⟩ := Option.map_eq_some_iff.mp h
    rfl

/-- The symbols of calls are those of the entries that they asked for. -/
private theorem symbols_of_asked {part : List (Node Nat)}
    (h : asked calls = part.map (Node.resolve look)) : symbols calls = part.map Node.symbol := by
  induction calls generalizing part with
  | nil =>
    rw [List.map_eq_nil_iff.mp h.symm]
    rfl
  | cons c calls ih =>
    cases part with
    | nil => cases h
    | cons entry part =>
      obtain ⟨hfirst, hrest⟩ := List.cons.inj h
      rw [List.map_cons, ← symbol_of_resolve hfirst.symm, ← ih hrest]
      rfl

/-- A listing has the symbols of the nodes in post-order. -/
theorem symbol_listing (start : Nat) (e : Expr) :
    (e.listing start).map Node.symbol = e.postorder.map fun d => d.root.symbol := by
  induction e generalizing start <;> simp [listing, postorder, root, Node.symbol, *]

/-- If no call fails, there is one for every node. -/
theorem symbols_calls (f : Folder σ ε α) (e : Expr) (s : σ)
    (hall : ∀ c ∈ e.calls f s, c.Succeeds) :
    symbols (e.calls f s) = e.postorder.map fun d => d.root.symbol := by
  have hcalls := recorded_calls f e s (finds_answerAt _)
  -- All entries have been asked for, as there are as many calls as nodes.
  have hlength : (asked (e.calls f s)).length =
      ((e.listing 0).map (Node.resolve (answerAt (e.calls f s)))).length := by
    rw [asked, List.length_map, List.length_map, length_listing, hcalls.length_eq_size hall,
      size_eq_length_postorder]
  rw [symbols_of_asked (hcalls.asks.eq_of_length hlength), symbol_listing]

/-! ## The calls come in post-order -/

/-- **The calls of a fold are those for the nodes in post-order, up to the first that fails**, for
every folder and every tree, and the stack machine makes the same calls.  A call is asked its node
with the answers of the calls for the operands of this very node, the left one first.  No call
follows one that has failed, the answer of the last call is that of the fold, and the fold succeeds
just if all calls do.  There are then as many as the tree has nodes, and their symbols determine the
tree, whatever folders the calls are made to. -/
theorem calls_postorder (f : Folder σ ε α) (e : Expr) (s : σ) :
    e.foldStack f s = e.fold f s ∧ e.callsStack f s = e.calls f s ∧
      Prod.map id Prod.snd (e.fold (transcribed f) ([], s)) = e.fold f s ∧
      (e.listing 0).map (Node.resolve (e.postorder[·]?)) =
        e.postorder.map (fun d => some d.root) ∧
      asked (e.calls f s) <+: (e.listing 0).map (Node.resolve (answerAt (e.calls f s))) ∧
      (∀ before c after, e.calls f s = before ++ c :: after → ¬c.Succeeds → after = []) ∧
      (e.calls f s).getLast?.map Call.answer = some (e.fold f s).1 ∧
      ((∃ a, (e.fold f s).1 = .ok a) ↔ ∀ c ∈ e.calls f s, c.Succeeds) ∧
      ((∀ c ∈ e.calls f s, c.Succeeds) → (e.calls f s).length = e.size) ∧
      ∀ {τ ζ β : Type} (g : Folder τ ζ β) (e' : Expr) (t : τ),
        (∀ c ∈ e.calls f s, c.Succeeds) → (∀ c ∈ e'.calls g t, c.Succeeds) →
        symbols (e.calls f s) = symbols (e'.calls g t) → e = e' := by
  have hcalls := recorded_calls f e s (finds_answerAt _)
  refine ⟨foldStack_eq_fold f e s, ?machine, fold_transcribed f e [] s, listing_postorder e,
    hcalls.asks, ?failure, hcalls.getLast?_eq, hcalls.succeeds_iff, hcalls.length_eq_size, ?tree⟩
  case machine => rw [callsStack, foldStack_eq_fold, Expr.calls]
  case failure =>
    intro before c after heq hc
    exact hcalls.nil_of_fails heq hc
  case tree =>
    intro τ ζ β g e' t hall hall' hsymbols
    -- Both lists of symbols are those of the trees in post-order, which tell the trees.
    rw [symbols_calls f e s hall, symbols_calls g e' t hall'] at hsymbols
    exact eq_of_symbols_eq hsymbols

end Expr
end Reckoner
