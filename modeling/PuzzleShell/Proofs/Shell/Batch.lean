import PuzzleShell.Proofs.Shell.Loops

/-!
# Many operands in one line

A line with many operands does what the lines with one operand each do in turn, for each of the
commands that take their operands one by one. A line with one operand that reports an error does
nothing.
-/

namespace PuzzleShell

/-- The lines and the state that come of answering one item after the other, each on the state
that the one before has left. -/
def inTurn {α : Type} (answer : State → α → Outcome) : State → List α → List Line × State
  | s, [] => ([], s)
  | s, x :: xs =>
    let o := answer s x
    let rest := inTurn answer (o.patch.apply s) xs
    (o.lines ++ rest.1, rest.2)

section Loops

variable {α D : Type} (answer : State → α → Outcome) (lines : D → List Line) (state : D → State)

/-- What a pass of a loop is to add to a draft, which has `lines` and stands for a `state`: what
the answer to the item says and does. -/
structure Adds (x : α) (d d' : D) : Prop where
  lines_eq : lines d' = lines d ++ (answer (state d) x).lines
  state_eq : state d' = (answer (state d) x).patch.apply (state d)

variable {answer lines state}

theorem foldlM_inTurn {f : D → α → Except Fault D} {P : D → Prop} {xs : List α} {d : D}
    (hf : ∀ x ∈ xs, ∀ d, P d → ∃ d', f d x = .ok d' ∧ P d' ∧ Adds answer lines state x d d')
    (hd : P d) : ∃ d', xs.foldlM f d = .ok d' ∧ P d' ∧
      lines d' = lines d ++ (inTurn answer (state d) xs).1 ∧
      state d' = (inTurn answer (state d) xs).2 := by
  induction xs generalizing d with
  | nil => exact ⟨d, rfl, hd, (List.append_nil _).symm, rfl⟩
  | cons x xs ih =>
    obtain ⟨d₁, hx, hd₁, hadds⟩ := hf x List.mem_cons_self d hd
    obtain ⟨d₂, hxs, hd₂, hlines, hstate⟩ :=
      ih (fun x hx => hf x (List.mem_cons_of_mem _ hx)) hd₁
    refine ⟨d₂, ?_, hd₂, ?_, ?_⟩
    · rw [List.foldlM_cons, hx]
      exact hxs
    · rw [hlines, hadds.lines_eq, hadds.state_eq, List.append_assoc]
      rfl
    · rw [hstate, hadds.state_eq]
      rfl

variable (answer) in
theorem inTurn_of_lines {s : State} {g : α → List Line} {xs : List α}
    (h : ∀ x ∈ xs, answer s x = { lines := g x }) : inTurn answer s xs = (xs.flatMap g, s) := by
  induction xs with
  | nil => rfl
  | cons x xs ih =>
    obtain ⟨hx, hxs⟩ := List.forall_mem_cons.1 h
    rw [inTurn, hx, List.flatMap_cons]
    dsimp only
    rw [Patch.apply_empty, ih hxs]

end Loops

namespace Shell

variable {r r' : Request}

section Cwd

variable (h : r.cwd = r'.cwd)
include h

theorem mkdirOne_congr : mkdirOne r = mkdirOne r' := by
  unfold mkdirOne Request.resolve
  rw [h]

theorem touchOne_congr : touchOne r = touchOne r' := by
  unfold touchOne Request.resolve
  rw [h]

theorem chmodOne_congr : chmodOne r = chmodOne r' := by
  unfold chmodOne Request.resolve
  rw [h]

end Cwd

section Answers

variable {ws : List String} {d : Draft} (hne : ws ≠ [])
include hne

theorem mkdir_eq_map (hargs : r.args.filter (!Text.startsWith "-" ·) = ws) :
    mkdir r = (ws.foldlM (mkdirOne r) { tree := r.tree }).map Draft.outcome := by
  obtain ⟨w, rest, rfl⟩ := List.exists_cons_of_ne_nil hne
  unfold mkdir
  rw [hargs]
  rfl

theorem mkdir_eq_ok (hargs : r.args.filter (!Text.startsWith "-" ·) = ws)
    (hd : ws.foldlM (mkdirOne r) { tree := r.tree } = .ok d) : mkdir r = .ok d.outcome := by
  rw [mkdir_eq_map hne hargs, hd]
  rfl

theorem touch_eq_outcome (hargs : r.args = ws) :
    touch r = (ws.foldl (touchOne r) { tree := r.tree }).outcome := by
  obtain ⟨w, rest, rfl⟩ := List.exists_cons_of_ne_nil hne
  unfold touch
  rw [hargs]

theorem chmod_eq_map {mode : String} (hargs : r.args = mode :: ws) : chmod r =
    match executableMode? mode with
    | none => .ok (.fail s!"chmod: invalid mode: '{mode}'")
    | some executable =>
      (ws.foldlM (chmodOne r executable) { tree := r.tree }).map Draft.outcome := by
  obtain ⟨w, rest, rfl⟩ := List.exists_cons_of_ne_nil hne
  unfold chmod
  rw [hargs]
  rfl

theorem chmod_eq_ok {mode : String} {executable : Bool} (hargs : r.args = mode :: ws)
    (hmode : executableMode? mode = some executable)
    (hd : ws.foldlM (chmodOne r executable) { tree := r.tree } = .ok d) :
    chmod r = .ok d.outcome := by
  rw [chmod_eq_map hne hargs, hmode]
  dsimp only
  rw [hd]
  rfl

theorem forPackages_eq_outcome {args : List String}
    (hargs : args.filter (!Text.startsWith "-" ·) = ws)
    (change : PackageDraft → String → PackageDraft) : forPackages r args change =
      (ws.foldl change ⟨r.state.installed, []⟩).outcome r.state.installed := by
  obtain ⟨w, rest, rfl⟩ := List.exists_cons_of_ne_nil hne
  unfold forPackages
  rw [hargs]

end Answers

def shownLines (r : Request) (target : String) : List Line :=
  match r.read target with
  | .ok content => (contentLines content).map .output
  | .error e => [e.line "cat" target]

theorem shownLines_congr (h : r.state = r'.state) : shownLines r = shownLines r' := by
  unfold shownLines Request.read Request.lookup Request.tree Request.resolve Request.cwd
  rw [h]

theorem cat_eq_lines (hne : r.args ≠ []) :
    cat r = { lines := r.args.flatMap (shownLines r) } := by
  unfold cat
  rw [List.isEmpty_eq_false_iff.2 hne]
  rfl

end Shell

/-- The commands that take operands one by one. -/
inductive Batch where
  | mkdir
  | touch
  | chmod (mode : String) (executable : Bool)
      (supported : Shell.executableMode? mode = some executable)
  | cat
  | install
  | remove

namespace Batch

def command : Batch → Command
  | mkdir => .mkdir
  | touch => .touch
  | chmod .. => .chmod
  | cat => .cat
  | install | remove => .apt

/-- What stands between the name of the command and the operands. -/
def options : Batch → List String
  | chmod mode .. => [mode]
  | install => ["install"]
  | remove => ["remove"]
  | _ => []

def words (b : Batch) : List String := b.command.name :: b.options

/-- Where a word with a dash in front is an option, it is no operand. -/
def Takes : Batch → String → Prop
  | mkdir, w | install, w | remove, w => Text.startsWith "-" w = false
  | _, _ => True

def request (b : Batch) (context : Context) (s : State) (ws : List String) : Request where
  name := b.command.name
  args := b.options ++ ws
  state := s
  context := context

def answer (b : Batch) (context : Context) (s : State) (ws : List String) : Outcome :=
  Shell.answer (b.request context s ws)

variable {b : Batch} {context : Context} {s : State} {ws : List String} {o : Outcome}

theorem answer_of_run (h : Shell.run (b.request context s ws) b.command = .ok o) :
    b.answer context s ws = o :=
  Shell.answer_of_run (Command.ofName?_name b.command) h

theorem execute_eq_answer {line : String} (h : Text.words line = b.words ++ ws) :
    execute context s line = b.answer context s ws :=
  execute_of_words h

/-- One line with many operands is as good as one line for each, and a line with one operand that
reports an error does nothing. -/
structure InTurn (b : Batch) (context : Context) (s : State) : Prop where
  batch : ∀ ws ≠ [], (∀ w ∈ ws, b.Takes w) →
    ((b.answer context s ws).lines, (b.answer context s ws).patch.apply s) =
      inTurn (fun s w => b.answer context s [w]) s ws
  single : ∀ w, b.Takes w → (b.answer context s [w]).hasErrors = true →
    (b.answer context s [w]).patch.apply s = s

section Tree

variable {f : Draft → String → Except Fault Draft} (hf : Draft.Loops f)
  (hanswer : ∀ t ws d, ws ≠ [] → (∀ w ∈ ws, b.Takes w) →
    ws.foldlM f { tree := t } = .ok d → b.answer context { s with tree := t } ws = d.outcome)
include hf hanswer

theorem exists_act {t : FileTree} {w : String} (hroot : t.root.isDir = true) (hw : b.Takes w) :
    ∃ a, b.answer context { s with tree := t } [w] = a.outcome ∧ Draft.Acts f t w a := by
  obtain ⟨a, ha⟩ := hf t w hroot
  refine ⟨a, ?_, ha⟩
  rw [← Draft.outcome_perform t a]
  refine hanswer t [w] _ (List.cons_ne_nil _ _) (fun v hv => ?_) ?_
  · rwa [List.mem_singleton.1 hv]
  · rw [List.foldlM_cons, ha.perform _ rfl]
    rfl

theorem inTurn_of_loops (hroot : s.tree.root.isDir = true) : b.InTurn context s := by
  constructor
  · intro ws hne hws
    have hpass : ∀ w ∈ ws, ∀ d : Draft, d.Fits s → ∃ d', f d w = .ok d' ∧ d'.Fits s ∧
        Adds (fun s w => b.answer context s [w]) Draft.lines (Draft.on s) w d d' := by
      intro w hw d hd
      obtain ⟨a, ha, hacts⟩ := exists_act hf hanswer hd.root (hws w hw)
      change b.answer context (d.on s) [w] = a.outcome at ha
      refine ⟨d.perform a, hacts.perform d rfl, hd.perform hacts.root, ?_, ?_⟩
      · rw [ha, Draft.lines_perform]
      · rw [ha, Draft.on_perform]
    have hstart : ({ tree := s.tree } : Draft).Fits s := ⟨hroot, fun _ => rfl⟩
    obtain ⟨d, hd, hfits, hlines, hstate⟩ := foldlM_inTurn hpass hstart
    have hall : b.answer context s ws = d.outcome := hanswer s.tree ws d hne hws hd
    rw [hall, hfits.apply_outcome, hstate]
    exact Prod.ext hlines rfl
  · intro w hw herror
    obtain ⟨a, ha, -⟩ := exists_act hf hanswer hroot hw
    change b.answer context s [w] = a.outcome at ha
    rw [ha] at herror ⊢
    rw [Draft.Act.patch_of_hasErrors herror, Patch.apply_empty]

end Tree

section Packages

variable {f : Shell.PackageDraft → String → Shell.PackageDraft} (hf : Shell.PackageDraft.Loops f)
  (hanswer : ∀ installed ws, ws ≠ [] → (∀ w ∈ ws, b.Takes w) →
    b.answer context { s with installed } ws = (ws.foldl f ⟨installed, []⟩).outcome installed)
include hf hanswer

theorem exists_change (installed : List String) {w : String} (hw : b.Takes w) :
    ∃ (after : List String) (ls : List Line),
      (ls.any (·.kind == .error) = true → after = installed) ∧
      (b.answer context { s with installed } [w]).lines = ls ∧
      (b.answer context { s with installed } [w]).patch.apply { s with installed } =
        { s with installed := after } ∧
      ∀ d : Shell.PackageDraft, d.installed = installed → f d w = ⟨after, d.lines ++ ls⟩ := by
  obtain ⟨after, ls, herror, hact⟩ := hf.act installed w
  have hone : [w].foldl f ⟨installed, []⟩ = ⟨after, ls⟩ := hact _ rfl
  have hlength := hf.length [w] installed
  have hanswered := hanswer installed [w] (List.cons_ne_nil _ _) fun v hv =>
    (List.mem_singleton.1 hv) ▸ hw
  rw [hone] at hlength hanswered
  refine ⟨after, ls, herror, ?_, ?_, hact⟩
  · rw [hanswered]
    rfl
  · rw [hanswered]
    exact Shell.PackageDraft.apply_outcome (s := { s with installed }) hlength

theorem inTurn_of_packageLoops : b.InTurn context s := by
  constructor
  · intro ws hne hws
    have hpass : ∀ w ∈ ws, ∀ d : Shell.PackageDraft, True → ∃ d',
        (Except.ok (f d w) : Except Fault _) = .ok d' ∧ True ∧
        Adds (fun s w => b.answer context s [w]) Shell.PackageDraft.lines
          (Shell.PackageDraft.on s) w d d' := by
      rintro w hw d -
      obtain ⟨after, ls, -, hlines, hstate, hact⟩ :=
        exists_change hf hanswer d.installed (hws w hw)
      refine ⟨_, rfl, trivial, ?_, ?_⟩
      · rw [hact d rfl, ← hlines]
        rfl
      · rw [hact d rfl]
        exact hstate.symm
    obtain ⟨d, hd, -, hlines, hstate⟩ := foldlM_inTurn (d := ⟨s.installed, []⟩) hpass trivial
    have hfold : ws.foldl f ⟨s.installed, []⟩ = d := by
      rw [Shell.foldlM_ok] at hd
      exact Except.ok.inj hd
    have hall : b.answer context s ws = d.outcome s.installed := by
      rw [← hfold]
      exact hanswer s.installed ws hne hws
    -- The patch is decided by a length at the end; the lines in turn compare one by one.
    have hlength := hf.length ws s.installed
    rw [hfold] at hlength
    rw [hall, Shell.PackageDraft.apply_outcome hlength, hstate]
    exact Prod.ext hlines rfl
  · intro w hw herror
    obtain ⟨after, ls, hkept, hlines, hstate, -⟩ := exists_change hf hanswer s.installed hw
    change (b.answer context s [w]).lines = ls at hlines
    rw [Outcome.hasErrors, hlines] at herror
    rw [hkept herror] at hstate
    exact hstate

end Packages

theorem filter_operands {ws : List String} (h : ∀ w ∈ ws, Text.startsWith "-" w = false) :
    ws.filter (!Text.startsWith "-" ·) = ws :=
  List.filter_eq_self.2 fun w hw => by rw [h w hw]; rfl

theorem runs_inTurn (b : Batch) (context : Context) {s : State} (hroot : s.tree.root.isDir = true) :
    b.InTurn context s := by
  cases b with
  | mkdir =>
    refine inTurn_of_loops (Shell.mkdir_loops (mkdir.request context s [])) ?_ hroot
    intro t ws d hne hws hd
    -- The operands are resolved against the current directory, which no operand moves.
    have hsame : Shell.mkdirOne (mkdir.request context { s with tree := t } ws) =
        Shell.mkdirOne (mkdir.request context s []) := Shell.mkdirOne_congr rfl
    rw [← hsame] at hd
    exact answer_of_run (Shell.mkdir_eq_ok hne (filter_operands hws) hd)
  | touch =>
    refine inTurn_of_loops (Shell.touch_loops (touch.request context s [])) ?_ hroot
    intro t ws d hne hws hd
    rw [Shell.foldlM_ok] at hd
    have hsame : Shell.touchOne (touch.request context { s with tree := t } ws) =
        Shell.touchOne (touch.request context s []) := Shell.touchOne_congr rfl
    rw [← hsame] at hd
    rw [← Except.ok.inj hd]
    exact answer_of_run (congrArg Except.ok (Shell.touch_eq_outcome hne rfl))
  | chmod mode executable supported =>
    refine inTurn_of_loops (Shell.chmod_loops
      ((chmod mode executable supported).request context s []) executable) ?_ hroot
    intro t ws d hne hws hd
    have hsame : Shell.chmodOne
          ((chmod mode executable supported).request context { s with tree := t } ws) =
        Shell.chmodOne ((chmod mode executable supported).request context s []) :=
      Shell.chmodOne_congr rfl
    rw [← hsame] at hd
    exact answer_of_run (Shell.chmod_eq_ok hne rfl supported hd)
  | install =>
    refine inTurn_of_packageLoops (Shell.installOne_loops context.catalog) ?_
    intro installed ws hne hws
    have hfilter := filter_operands hws
    exact answer_of_run (congrArg Except.ok (Shell.forPackages_eq_outcome hne hfilter _))
  | remove =>
    refine inTurn_of_packageLoops Shell.uninstallOne_loops ?_
    intro installed ws hne hws
    have hfilter := filter_operands hws
    exact answer_of_run (congrArg Except.ok (Shell.forPackages_eq_outcome hne hfilter _))
  | cat =>
    have hanswer : ∀ ws ≠ [], cat.answer context s ws =
        { lines := ws.flatMap (Shell.shownLines (cat.request context s [])) } := by
      intro ws hne
      have hsame : Shell.shownLines (cat.request context s ws) =
          Shell.shownLines (cat.request context s []) := Shell.shownLines_congr rfl
      rw [← hsame]
      exact answer_of_run (congrArg Except.ok (Shell.cat_eq_lines hne))
    constructor
    · rintro ws hne -
      have hone : ∀ w ∈ ws, cat.answer context s [w] =
          { lines := Shell.shownLines (cat.request context s []) w } := by
        intro w _
        rw [hanswer [w] (List.cons_ne_nil _ _), List.flatMap_cons, List.flatMap_nil,
          List.append_nil]
      rw [hanswer ws hne, inTurn_of_lines (fun s w => cat.answer context s [w]) hone,
        Patch.apply_empty]
    · rintro w - -
      rw [hanswer [w] (List.cons_ne_nil _ _), Patch.apply_empty]

end Batch

theorem inTurn_execute_of_words {α : Type} {context : Context} {answer : State → α → Outcome}
    {typed : α → List String} {lines : List String} {items : List α}
    (hanswer : ∀ s line x, Text.words line = typed x → execute context s line = answer s x)
    (s : State) (h : lines.map Text.words = items.map typed) :
    inTurn (execute context) s lines = inTurn answer s items := by
  induction lines generalizing s items with
  | nil =>
    rw [List.map_nil, eq_comm, List.map_eq_nil_iff] at h
    rw [h]
    rfl
  | cons line lines ih =>
    cases items with
    | nil => cases h
    | cons x items =>
      rw [List.map_cons, List.map_cons, List.cons.injEq] at h
      rw [inTurn, inTurn, hanswer s line x h.1, ih _ h.2]

theorem inTurn_execute {context : Context} {b : Batch} {lines operands : List String} (s : State)
    (h : lines.map Text.words = operands.map fun w => b.words ++ [w]) :
    inTurn (execute context) s lines = inTurn (fun s w => b.answer context s [w]) s operands :=
  inTurn_execute_of_words (fun _ _ _ => Batch.execute_eq_answer) s h

/-- A line with many operands shows the same lines and leaves the same state as the lines with one
operand each, executed in turn; and one of those that reports an error leaves the state as it is. -/
theorem execute_inTurn (context : Context) {s : State} (hroot : s.tree.root.isDir = true)
    (b : Batch) {operands lines : List String} {line : String} (hne : operands ≠ [])
    (htakes : ∀ w ∈ operands, b.Takes w) (hline : Text.words line = b.words ++ operands)
    (hlines : lines.map Text.words = operands.map fun w => b.words ++ [w]) :
    ((execute context s line).lines, (execute context s line).patch.apply s) =
      inTurn (execute context) s lines ∧
    ∀ w one, b.Takes w → Text.words one = b.words ++ [w] →
      (execute context s one).hasErrors = true → (execute context s one).patch.apply s = s := by
  have hturn := b.runs_inTurn context hroot
  constructor
  · rw [Batch.execute_eq_answer hline, inTurn_execute s hlines]
    exact hturn.batch operands hne htakes
  · intro w one hw hone
    rw [Batch.execute_eq_answer hone]
    exact hturn.single w hw

/-- The second operand lies in the first, and the third is there already by its turn. -/
theorem execute_inTurn_mkdir :
    ((execute {} {} "mkdir a a/b a").lines, (execute {} {} "mkdir a a/b a").patch.apply {}) =
      inTurn (execute {}) {} ["mkdir a", "mkdir a/b", "mkdir a"] ∧
    (execute {} {} "mkdir /").patch.apply {} = {} := by
  have hroot : ({} : State).tree.root.isDir = true := rfl
  have htakes : ∀ w ∈ ["a", "a/b", "a"], Batch.mkdir.Takes w := by
    unfold Batch.Takes
    decide +kernel
  have hline : Text.words "mkdir a a/b a" = Batch.mkdir.words ++ ["a", "a/b", "a"] := by
    decide +kernel
  have hlines : ["mkdir a", "mkdir a/b", "mkdir a"].map Text.words =
      ["a", "a/b", "a"].map fun w => Batch.mkdir.words ++ [w] := by decide +kernel
  have hone : Text.words "mkdir /" = Batch.mkdir.words ++ ["/"] := by decide +kernel
  have herror : (execute {} {} "mkdir /").hasErrors = true := by decide +kernel
  obtain ⟨hturn, hsingle⟩ :=
    execute_inTurn {} hroot .mkdir (List.cons_ne_nil _ _) htakes hline hlines
  exact ⟨hturn, hsingle "/" "mkdir /" rfl hone herror⟩

end PuzzleShell
