import Mathlib.Data.List.Rotate
import PuzzleShell.Proofs.Completion

/-!
# Going through the candidates

Whoever asks a completer again and again with the line that it has just returned is led through all
the candidates of the first line in their order, and from the last one back to the first. Only the
line and the state decide whether a cycle goes on. Any other request makes the completer forget it,
so that it answers like a new one.
-/

namespace PuzzleShell.Completion

/-- What can be asked of a completer. A state is known by its mark. -/
inductive Call where
  | complete (mark : Nat) (line : String)
  /-- Completes the line that was returned last. -/
  | again (mark : Nat)
  | candidates (mark : Nat) (line : String)
  | reset
deriving DecidableEq, Repr

namespace Call

def suggests : Call → Bool
  | complete .. | again _ => true
  | candidates .. | reset => false

/-- The call goes on with what was suggested last in the state `mark`, or only looks at
candidates. -/
def Stays (mark : Nat) : Call → Prop
  | again other => other = mark
  | candidates .. => True
  | complete .. | reset => False

/-- The call has to do with another line or another state than was suggested last, or is a reset. -/
def Ends (mark : Nat) (latest : String) : Call → Prop
  | complete other line => line ≠ latest ∨ other ≠ mark
  | again other => other ≠ mark
  | candidates .. => False
  | reset => True

end Call

structure Dialogue where
  memory : Memory := none
  latest : String := ""
deriving DecidableEq, Repr

namespace Dialogue

section Calls

-- The states that there are, by their marks.
variable (world : Nat → State)

def press (d : Dialogue) (mark : Nat) (line : String) : Dialogue :=
  let memory := complete (world mark) mark line d.memory
  { memory, latest := (suggestion? memory).getD "" }

def ask (d : Dialogue) : Call → Dialogue
  | .complete mark line => d.press world mark line
  | .again mark => d.press world mark d.latest
  | .candidates .. => d
  | .reset => { d with memory := none }

def asked (d : Dialogue) (calls : List Call) : Dialogue := calls.foldl (ask world) d

def suggestions (d : Dialogue) : List Call → List (Option String)
  | [] => []
  | call :: rest =>
    let after := d.ask world call
    let others := after.suggestions rest
    if call.suggests then suggestion? after.memory :: others else others

end Calls

end Dialogue

section Turning

/-- The cycle `k` suggestions later. -/
def Cycle.turned (c : Cycle) (k : Nat) : Cycle :=
  { c with index := (c.index + k) % c.candidates.length }

theorem Cycle.next_turned (c : Cycle) (k : Nat) : (c.turned k).next = c.turned (k + 1) := by
  unfold next turned
  dsimp only
  rw [Nat.mod_add_mod, Nat.add_assoc]

def Cycle.dialogue (c : Cycle) : Dialogue := ⟨some c, c.suggestion⟩

variable (world : Nat → State)

theorem Cycle.press_dialogue (c : Cycle) :
    c.dialogue.press world c.mark c.suggestion = c.next.dialogue := by
  have hnext : complete (world c.mark) c.mark c.suggestion (some c) = some c.next :=
    if_pos ⟨rfl, rfl⟩
  rw [Dialogue.press, dialogue, hnext]
  rfl

/-- While a cycle goes on it is turned by one for each suggestion. -/
theorem Cycle.asked_dialogue (c : Cycle) {rest : List Call} (hrest : ∀ x ∈ rest, x.Stays c.mark)
    (k : Nat) : (c.turned k).dialogue.asked world rest =
      (c.turned (k + rest.countP Call.suggests)).dialogue ∧
    (c.turned k).dialogue.suggestions world rest =
      (List.range' (k + 1) (rest.countP Call.suggests)).map fun j =>
        some (c.turned j).suggestion := by
  induction rest generalizing k with
  | nil => exact ⟨rfl, rfl⟩
  | cons x rest ih =>
    obtain ⟨hx, hothers⟩ := List.forall_mem_cons.1 hrest
    cases x with
    | complete => cases hx
    | reset => cases hx
    | candidates => exact ih hothers k
    | again other =>
      obtain rfl : other = c.mark := hx
      have hturn : (c.turned k).dialogue.ask world (.again c.mark) = (c.turned (k + 1)).dialogue := by
        rw [← c.next_turned k]
        exact (c.turned k).press_dialogue world
      have hcount : (Call.again c.mark :: rest).countP Call.suggests =
          rest.countP Call.suggests + 1 := List.countP_cons_of_pos rfl
      obtain ⟨hasked, hsuggestions⟩ := ih hothers (k + 1)
      rw [hcount]
      constructor
      · rw [Nat.add_right_comm] at hasked
        rw [Dialogue.asked, List.foldl_cons, hturn]
        exact hasked
      · rw [Dialogue.suggestions, hturn, List.range'_succ, List.map_cons, ← hsuggestions]
        rfl

end Turning

section Start

variable {world : Nat → State} {d : Dialogue} {mark : Nat} {line : String}

def suggestionAt? (s : State) (line : String) (p : Nat) : Option String :=
  (candidates s line)[p]?.map (stem line ++ ·)

def firstCycle (s : State) (mark : Nat) (line : String) : Cycle :=
  { stem := stem line, candidates := candidates s line, index := 0, mark }

theorem suggestion_turned {s : State} (h : candidates s line ≠ []) (k : Nat) :
    some ((firstCycle s mark line).turned k).suggestion =
      suggestionAt? s line (k % (candidates s line).length) := by
  have hlt : k % (candidates s line).length < (candidates s line).length :=
    Nat.mod_lt _ (List.length_pos_iff.2 h)
  have hindex : ((firstCycle s mark line).turned k).index = k % (candidates s line).length := by
    rw [Cycle.turned, firstCycle, Nat.zero_add]
  rw [Cycle.suggestion, hindex, suggestionAt?, List.getElem?_eq_getElem hlt, Option.map_some,
    List.getElem_eq_getD ""]
  rfl

theorem Dialogue.press_of_not_continues (h : ¬ Continues d.memory mark line) :
    d.press world mark line = ({} : Dialogue).press world mark line := by
  rw [press, complete_of_not_continues h]
  rfl

theorem Dialogue.press_of_no_candidates (h : ¬ Continues d.memory mark line)
    (hnone : candidates (world mark) line = []) : d.press world mark line = {} := by
  have hstart : Cycle.start? (world mark) mark line = none := by
    rw [Cycle.start?, analyse_eq, hnone]
    rfl
  rw [press, complete_of_not_continues h, hstart]
  rfl

theorem Dialogue.press_of_candidates (h : ¬ Continues d.memory mark line)
    (hsome : candidates (world mark) line ≠ []) :
    d.press world mark line = ((firstCycle (world mark) mark line).turned 0).dialogue := by
  have hstart : Cycle.start? (world mark) mark line =
      some ((firstCycle (world mark) mark line).turned 0) := by
    rw [Cycle.start?, analyse_eq]
    exact if_neg (mt List.isEmpty_iff.1 hsome)
  rw [press, complete_of_not_continues h, hstart]
  rfl

theorem Cycle.ask_of_ends {c : Cycle} {call : Call} (h : call.Ends c.mark c.suggestion) :
    c.dialogue.ask world call = ({ latest := c.suggestion } : Dialogue).ask world call := by
  have hother {other : Nat} {line : String} (hne : line ≠ c.suggestion ∨ other ≠ c.mark) :
      c.dialogue.press world other line = ({} : Dialogue).press world other line := by
    refine Dialogue.press_of_not_continues ?_
    rintro ⟨_, ⟨⟩, hline, hmark⟩
    exact hne.elim (· hline) (· hmark)
  cases call with
  | complete other line => exact hother h
  | again other => exact hother (.inr h)
  | candidates => cases h
  | reset => rfl

end Start

section Cycles

variable {world : Nat → State} {d : Dialogue} {mark : Nat} {line : String} {rest : List Call}

theorem map_mod_range' (b n : Nat) : (List.range' b n).map (· % n) = (List.range n).rotate b := by
  refine List.ext_getElem (by simp) fun i _ _ => ?_
  simp [List.getElem_rotate, Nat.add_comm]

/-- What is suggested when a line is completed that does not continue a cycle, and the completer is
then asked for more. -/
structure Dialogue.Cycles (world : Nat → State) (d : Dialogue) (mark : Nat) (line : String)
    (rest : List Call) : Prop where
  turns : d.suggestions world (.complete mark line :: rest) =
    (List.range (rest.countP Call.suggests + 1)).map fun k =>
      suggestionAt? (world mark) line (k % (candidates (world mark) line).length)
  /-- Each position of the list is visited once by as many suggestions as there are candidates. -/
  visits : ∀ before block after,
    d.suggestions world (.complete mark line :: rest) = before ++ block ++ after →
    block.length = (candidates (world mark) line).length →
    ∃ positions : List Nat, positions.Perm (List.range (candidates (world mark) line).length) ∧
      block = positions.map (suggestionAt? (world mark) line)
  /-- After a call that ends the cycle nothing is left of it. -/
  ends : ∀ call, call.Ends mark (d.asked world (.complete mark line :: rest)).latest → ∀ more,
    (d.asked world (.complete mark line :: rest)).suggestions world (call :: more) =
      ({ latest := (d.asked world (.complete mark line :: rest)).latest } : Dialogue).suggestions
        world (call :: more)

theorem exists_positions {α : Type} {f : Nat → α} {m n : Nat} {before block after : List α}
    (h : (List.range' 0 m).map (fun k => f (k % n)) = before ++ block ++ after)
    (hlength : block.length = n) :
    ∃ positions : List Nat, positions.Perm (List.range n) ∧ block = positions.map f := by
  rw [List.append_assoc] at h
  obtain ⟨_, others, hsplit, -, hothers⟩ := List.map_eq_append_iff.1 h
  obtain ⟨mid, _, rfl, rfl, -⟩ := List.map_eq_append_iff.1 hothers
  obtain ⟨b, -, -, hrange⟩ := List.range'_eq_append_iff.1 hsplit
  obtain ⟨l, -, rfl, -⟩ := List.range'_eq_append_iff.1 hrange.symm
  obtain rfl : l = n := by simpa using hlength
  refine ⟨(List.range l).rotate b, List.rotate_perm _ _, ?_⟩
  rw [Nat.zero_add, Nat.mul_one, ← map_mod_range', List.map_map]
  rfl

theorem cycles_of_candidates (h : ¬ Continues d.memory mark line)
    (hsome : candidates (world mark) line ≠ []) (hrest : ∀ x ∈ rest, x.Stays mark) :
    d.Cycles world mark line rest := by
  let c := firstCycle (world mark) mark line
  have hstart : d.ask world (.complete mark line) = (c.turned 0).dialogue :=
    Dialogue.press_of_candidates h hsome
  obtain ⟨hasked, hsuggestions⟩ := c.asked_dialogue world hrest 0
  have hafter : d.asked world (.complete mark line :: rest) =
      (c.turned (0 + rest.countP Call.suggests)).dialogue := by
    rw [← hasked, ← hstart]
    rfl
  have hturns : d.suggestions world (.complete mark line :: rest) =
      (List.range' 0 (rest.countP Call.suggests + 1)).map fun k => some (c.turned k).suggestion := by
    rw [Dialogue.suggestions, hstart, hsuggestions, List.range'_succ, List.map_cons]
    rfl
  simp only [c, suggestion_turned hsome] at hturns
  refine ⟨?_, fun before block after hsplit hlength => ?_, fun call hcall more => ?_⟩
  · rw [hturns, List.range_eq_range']
  · rw [hturns] at hsplit
    exact exists_positions hsplit hlength
  · rw [hafter] at hcall ⊢
    rw [Dialogue.suggestions, Dialogue.suggestions, Cycle.ask_of_ends hcall]
    rfl

/-- Completing a line that does not continue a cycle starts one through its candidates. -/
theorem cycles_of_not_continues (world : Nat → State) {d : Dialogue} {mark : Nat} {line : String}
    (h : ¬ Continues d.memory mark line) :
    (candidates (world mark) line = [] →
      d.suggestions world [.complete mark line] = [none] ∧
      ∀ mark' line', (d.ask world (.complete mark line)).suggestions world
        [.complete mark' line'] = [suggestionAt? (world mark') line' 0]) ∧
    (candidates (world mark) line ≠ [] → ∀ rest : List Call, (∀ x ∈ rest, x.Stays mark) →
      d.Cycles world mark line rest) := by
  refine ⟨fun hnone => ?_, fun hsome rest hrest => cycles_of_candidates h hsome hrest⟩
  have hstart : d.ask world (.complete mark line) = {} := Dialogue.press_of_no_candidates h hnone
  refine ⟨?_, fun mark' line' => ?_⟩
  · rw [Dialogue.suggestions, hstart]
    rfl
  · rw [hstart, suggestionAt?, ← List.head?_eq_getElem?, ← suggestion?_start?]
    rfl

/-- The line is what was suggested last, but for another state, though an equal one. So a cycle
starts here, and it goes past the last of two candidates. -/
theorem cycles_of_other_state :
    let world := fun _ : Nat => ({} : State)
    let d := ({} : Dialogue).asked world [.complete 1 "a"]
    let rest := [Call.again 0, .candidates 1 "ls ", .again 0]
    d.latest = "apt" ∧ d.suggestions world (.complete 0 "apt" :: rest) =
      [some "apt", some "apt-get", some "apt"] := by
  intro world d rest
  have hfresh : ¬ Continues d.memory 0 "apt" := by
    rintro ⟨c, hc, -, hmark⟩
    have hmarks : d.memory.map Cycle.mark = some 1 := by decide +kernel
    rw [hc] at hmarks
    exact absurd (hmark.trans (Option.some.inj hmarks)) (by decide)
  have hcandidates : candidates (world 0) "apt" = ["apt", "apt-get"] := by decide +kernel
  have hsome : candidates (world 0) "apt" ≠ [] := by
    rw [hcandidates]
    exact List.cons_ne_nil _ _
  have hstays : ∀ x ∈ rest, x.Stays 0 := by
    simp [rest, Call.Stays]
  have hcycles := (cycles_of_not_continues world hfresh).2 hsome rest hstays
  refine ⟨by decide +kernel, hcycles.turns.trans ?_⟩
  decide +kernel

end Cycles

end PuzzleShell.Completion
