import WorkflowStudio.Workspace

/-!
The order in which observers are told. The recorder takes a notice and nothing else, and the
history does not look at the notices, so it does not matter where among the observers it is.
-/
namespace WorkflowStudio.Workspace

variable {ε α : Type} {w : Workspace ε}

/-- The workspace with what the recorder was told. -/
def noted (w : Workspace ε) (notices : List Notice) : Workspace ε := { w with notices := notices }

/-- A step that leads to a workspace with what the recorder was told. -/
def notedStep {β : Type} (step : Workspace ε × β) (notices : List Notice) : Workspace ε × β :=
  (step.1.noted notices, step.2)

theorem observers_of_mem {observers : List Observer} (hnodup : observers.Nodup)
    (hmem : Observer.history ∈ observers) : observers = [.history] ∨
      observers = [.recorder, .history] ∨ observers = [.history, .recorder] := by
  match observers, hnodup, hmem with
  | [.history], _, _ => exact Or.inl rfl
  | [.recorder, .history], _, _ => exact Or.inr (Or.inl rfl)
  | [.history, .recorder], _, _ => exact Or.inr (Or.inr rfl)
  | .recorder :: .recorder :: _, hnodup, _ =>
    exact absurd List.mem_cons_self (List.nodup_cons.mp hnodup).1
  | .history :: .history :: _, hnodup, _ =>
    exact absurd List.mem_cons_self (List.nodup_cons.mp hnodup).1
  | .recorder :: .history :: observer :: rest, hnodup, _ => cases observer <;> simp at hnodup
  | .history :: .recorder :: observer :: rest, hnodup, _ => cases observer <;> simp at hnodup

theorem observers_of_not_mem {observers : List Observer} (hnodup : observers.Nodup)
    (hmem : Observer.history ∉ observers) : observers = [] ∨ observers = [.recorder] := by
  match observers, hnodup, hmem with
  | [], _, _ => exact Or.inl rfl
  | [.recorder], _, _ => exact Or.inr rfl
  | .history :: _, _, hmem => exact absurd List.mem_cons_self hmem
  | .recorder :: .history :: _, _, hmem =>
    exact absurd (List.mem_cons_of_mem _ List.mem_cons_self) hmem
  | .recorder :: .recorder :: _, hnodup, _ =>
    exact absurd List.mem_cons_self (List.nodup_cons.mp hnodup).1

theorem tellAll_eq (hnodup : w.observers.Nodup)
    {tell : Workspace ε → Observer → Workspace ε × Except Fault Unit} {notice : Notice}
    (hrecorder : ∀ other : Workspace ε, tell other .recorder = (other.note notice, .ok ()))
    (hhistory : ∀ notices, tell (w.noted notices) .history = notedStep (tell w .history) notices) :
    ∃ notices, w.tellAll tell w.observers = notedStep
      (if Observer.history ∈ w.observers then tell w .history else (w, .ok ())) notices := by
  by_cases hmem : Observer.history ∈ w.observers
  · rw [if_pos hmem]
    have hsecond : tell (w.note notice) .history =
        notedStep (tell w .history) (w.notices ++ [notice]) := hhistory (w.notices ++ [notice])
    cases hfirst : tell w .history with | mk next result =>
    rw [hfirst, notedStep] at hsecond
    rcases observers_of_mem hnodup hmem with hlist | hlist | hlist
    · rw [hlist, tellAll, hfirst]
      cases result <;> exact ⟨next.notices, rfl⟩
    · rw [hlist, tellAll, hrecorder]
      dsimp only
      rw [tellAll, hsecond]
      cases result <;> exact ⟨_, rfl⟩
    · rw [hlist, tellAll, hfirst]
      cases result with
      | ok u =>
        dsimp only
        rw [tellAll, hrecorder]
        exact ⟨_, rfl⟩
      | error fault => exact ⟨next.notices, rfl⟩
  · rw [if_neg hmem]
    rcases observers_of_not_mem hnodup hmem with hlist | hlist
    · rw [hlist]
      exact ⟨w.notices, rfl⟩
    · rw [hlist, tellAll, hrecorder]
      exact ⟨w.notices ++ [notice], rfl⟩

theorem tellMutation_noted (mutation : Mutation) (w : Workspace ε) (notices : List Notice) :
    tellMutation mutation (w.noted notices) .history =
      notedStep (tellMutation mutation w .history) notices := by
  have hhistory : (w.noted notices).history = w.history := rfl
  cases hw : w.history with
  | none =>
    rw [tellMutation, tellMutation, hhistory, hw]
    rfl
  | some h =>
    rw [tellMutation, tellMutation, hhistory, hw]
    rfl

variable [GraphEditor ε]

theorem record_noted (w : Workspace ε) (h : History) (label : Json) (notices : List Notice) :
    (w.noted notices).record h label = notedStep (w.record h label) notices := by
  have heditor : (w.noted notices).editor = w.editor := rfl
  unfold record
  rw [heditor]
  split
  · rfl
  · dsimp only
    cases GraphEditor.snapshot (GraphEditor.settled w.editor) <;> rfl

theorem tellBatchEnd_noted (w : Workspace ε) (notices : List Notice) :
    tellBatchEnd (w.noted notices) .history = notedStep (tellBatchEnd w .history) notices := by
  have hhistory : (w.noted notices).history = w.history := rfl
  rw [tellBatchEnd, tellBatchEnd, hhistory]
  cases w.history with
  | none => rfl
  | some h =>
    rw [Option.map_some]
    cases h.onBatchEnd with
    | mk ended outcome =>
      cases outcome with
      | nothing => rfl
      | wait label => rfl
      | record label =>
        dsimp only
        rw [record_noted]
        rfl

/-- The end of a batch is told when it is the outermost one. -/
theorem closeBatch_eq (hnodup : w.observers.Nodup) :
    ∃ notices, w.closeBatch = notedStep (if w.depth ≤ 1 ∧ Observer.history ∈ w.observers
      then tellBatchEnd { w with depth := 0 } .history
      else ({ w with depth := w.depth - 1 }, .ok ())) notices := by
  unfold closeBatch
  dsimp only
  by_cases hdepth : w.depth ≤ 1
  · have hzero : w.depth - 1 = 0 := Nat.sub_eq_zero_of_le hdepth
    rw [hzero, if_pos rfl]
    obtain ⟨notices, htold⟩ := tellAll_eq (w := { w with depth := 0 }) hnodup (fun _ => rfl)
      (tellBatchEnd_noted { w with depth := 0 })
    refine ⟨notices, htold.trans ?_⟩
    simp only [hdepth, true_and]
  · have hopen : w.depth - 1 ≠ 0 := by omega
    rw [if_neg hopen, if_neg fun h => hdepth h.1]
    exact ⟨w.notices, rfl⟩

/-- A mutation is told in a batch of its own, at the end of which the history has collected it. -/
theorem emit_eq_closeBatch (hnodup : w.observers.Nodup) {h : History}
    (hhistory : w.history = some h) (mutation : Mutation) :
    ∃ told : Workspace ε, w.emit mutation = told.closeBatch ∧ told.editor = w.editor ∧
      told.observers = w.observers ∧ told.depth = w.depth + 1 ∧
        told.history = some (if Observer.history ∈ w.observers then h.onMutation mutation
          else h) := by
  have hopened : w.openBatch.history = some h := hhistory
  have htell : tellMutation mutation w.openBatch .history =
      (w.openBatch.withHistory (h.onMutation mutation), .ok ()) := by
    rw [tellMutation, hopened]
  obtain ⟨notices, htold⟩ := tellAll_eq (w := w.openBatch) hnodup (fun _ => rfl)
    (tellMutation_noted mutation w.openBatch)
  have hobservers : w.openBatch.observers = w.observers := rfl
  rw [htell, hobservers] at htold
  unfold emit
  by_cases hmem : Observer.history ∈ w.observers
  · rw [if_pos hmem] at htold ⊢
    refine ⟨noted (w.openBatch.withHistory (h.onMutation mutation)) notices, ?_, rfl, rfl, rfl, rfl⟩
    rw [htold]
    dsimp only [notedStep]
    split <;> rename_i heq <;> exact heq.symm
  · rw [if_neg hmem] at htold ⊢
    refine ⟨w.openBatch.noted notices, ?_, rfl, rfl, rfl, hhistory⟩
    rw [htold]
    dsimp only [notedStep]
    split <;> rename_i heq <;> exact heq.symm

theorem perform_fst (w : Workspace ε) (command : ε → Outcome ε α) :
    (w.perform command).1 = match (command w.editor).mutation with
      | some mutation => (emit { w with editor := (command w.editor).editor } mutation).1
      | none => { w with editor := (command w.editor).editor } := by
  unfold perform
  dsimp only
  cases (command w.editor).mutation with
  | none => rfl
  | some mutation =>
    dsimp only
    split <;> rename_i heq <;> rw [heq]

theorem perform_eq_of_emit {command : ε → Outcome ε α} {mutation : Mutation}
    (hmutation : (command w.editor).mutation = some mutation) {next : Workspace ε}
    (hemit : emit { w with editor := (command w.editor).editor } mutation = (next, .ok ())) :
    w.perform command = (next, (command w.editor).result) := by
  unfold perform
  dsimp only
  rw [hmutation]
  dsimp only
  rw [hemit]

theorem perform_of_untold {command : ε → Outcome ε α} (h : (command w.editor).mutation = none) :
    w.perform command =
      ({ w with editor := (command w.editor).editor }, (command w.editor).result) := by
  simp only [perform, h]

/-- What a command gives when no observer fails is its own result. -/
theorem result_of_perform {command : ε → Outcome ε α} {a : α}
    (h : (w.perform command).2 = .ok a) : (command w.editor).result = .ok a := by
  unfold perform at h
  dsimp only at h
  split at h
  · exact h
  · split at h
    · exact h
    · cases h

end WorkflowStudio.Workspace
