import Mathlib.Order.Bounds.Basic
import WorkflowStudio.Editing.Poke
import WorkflowStudio.Proofs.GuardRecovery
import WorkflowStudio.Proofs.RecordFields

/-!
Numbered labels. The labels that count as numbers after a base are those that the scan of a label
accepts, whatever the base is made of. A new label is itself among them, with a number above all
of theirs, so it is none of the labels in use.
-/
namespace WorkflowStudio

/-! Digits are no blanks. -/

namespace Text

theorem exists_of_digitFrom {n d : Nat} {zeros : List Nat} (h : digitFrom n zeros = some d) :
    ∃ first ∈ zeros, first ≤ n ∧ n < first + 10 := by
  induction zeros with
  | nil => cases h
  | cons first rest ih =>
    rw [digitFrom] at h
    split at h
    · rename_i hbounds
      exact ⟨first, List.mem_cons_self, hbounds⟩
    · obtain ⟨other, hother, hbounds⟩ := ih h
      exact ⟨other, List.mem_cons_of_mem _ hother, hbounds⟩

/-- No range of blanks meets the ten digits of a script. -/
theorem isBlank_of_isDigit {c : Char} (h : isDigit c = true) : isBlank c = false := by
  obtain ⟨d, hd⟩ := Option.isSome_iff_exists.mp h
  obtain ⟨first, hfirst, hlow, hhigh⟩ := exists_of_digitFrom hd
  have hapart : ∀ first ∈ digitZeros, ∀ range ∈ blankRanges,
      range.2 < first ∨ first + 10 ≤ range.1 := by decide
  rw [isBlank, within, List.any_eq_false]
  intro range hrange hwithin
  simp only [Bool.and_eq_true, decide_eq_true_eq] at hwithin
  have hranges := hapart first hfirst range hrange
  omega

theorem isDigit_of_mem_wholeDigits {n : Nat} {c : Char} (h : c ∈ Numeral.wholeDigits n) :
    isDigit c = true := by
  rw [isDigit, digit?_of_plain (Numeral.isPlainDigit_of_mem_wholeDigits h)]
  rfl

end Text

namespace Numbering

/-! Labels that count. -/

/-- A label counts as a number after a base when it is the base, blanks, digits of any script that
spell the number, and at most one line break. Without digits it counts as zero. -/
def CountsAs (base label : String) (n : Nat) : Prop :=
  ∃ blanks digits lineEnd : List Char,
    label.toList = base.toList ++ (blanks ++ (digits ++ lineEnd)) ∧
    (∀ c ∈ blanks, Text.isBlank c = true) ∧ (∀ c ∈ digits, Text.isDigit c = true) ∧
    (lineEnd = [] ∨ lineEnd = ['\n']) ∧ Text.digitsValue digits = n

theorem countsAs_numbered (base : String) (n : Nat) :
    CountsAs base (base ++ " " ++ toString n) n := by
  refine ⟨[' '], Numeral.wholeDigits n, [], ?_, ?_, ?_, Or.inl rfl, ?_⟩
  · rw [String.toList_append, String.toList_append, List.append_nil, List.append_assoc]
    rfl
  · exact List.forall_mem_singleton.mpr rfl
  · exact fun c hc => Text.isDigit_of_mem_wholeDigits hc
  · exact Guard.digitsValue_wholeDigits n

theorem afterBase_eq_some_iff {base cs rest : List Char} :
    afterBase base cs = some rest ↔ cs = base ++ rest := by
  induction base generalizing cs with
  | nil => exact Option.some_inj
  | cons b base ih =>
    cases cs with
    | nil => simp [afterBase]
    | cons c cs =>
      rw [afterBase, List.cons_append, List.cons.injEq]
      by_cases hc : b = c
      · rw [if_pos hc, ih]
        exact (and_iff_right hc.symm).symm
      · rw [if_neg hc]
        exact iff_of_false nofun fun h => hc h.1.symm

theorem dropBreak_eq_nil_iff {cs : List Char} : dropBreak cs = [] ↔ cs = [] ∨ cs = ['\n'] := by
  rw [dropBreak]
  by_cases hbreak : cs = ['\n']
  · rw [if_pos hbreak]
    exact iff_of_true rfl (Or.inr hbreak)
  · rw [if_neg hbreak]
    exact (or_iff_left hbreak).symm

/-- What follows the base, divided into its blanks, its digits and its end. -/
theorem scan_eq {blanks digits lineEnd : List Char} (hblanks : ∀ c ∈ blanks, Text.isBlank c = true)
    (hdigits : ∀ c ∈ digits, Text.isDigit c = true) (hend : lineEnd = [] ∨ lineEnd = ['\n']) :
    ∃ tail, ((blanks ++ (digits ++ lineEnd)).dropWhile Text.isBlank).span Text.isDigit =
      (digits, tail) ∧ (tail = [] ∨ tail = ['\n']) := by
  rw [List.dropWhile_append_of_pos hblanks, List.span_eq_takeWhile_dropWhile]
  cases digits with
  | nil =>
    -- A line break without digits before it counts among the blanks.
    refine ⟨[], ?_, Or.inl rfl⟩
    rcases hend with rfl | rfl
    · rfl
    · rfl
  | cons d digits =>
    have hd : ¬Text.isBlank d = true := by
      rw [Text.isBlank_of_isDigit (hdigits d List.mem_cons_self)]
      exact Bool.false_ne_true
    rw [List.cons_append, List.dropWhile_cons_of_neg hd, ← List.cons_append,
      List.takeWhile_append_of_pos hdigits, List.dropWhile_append_of_pos hdigits]
    have hbreak : Text.isDigit '\n' = false := by decide
    rcases hend with rfl | rfl
    · exact ⟨[], by simp, Or.inl rfl⟩
    · exact ⟨['\n'], by simp [hbreak], Or.inr rfl⟩

theorem countsAs_iff {base label : String} {n : Nat} :
    CountsAs base label n ↔
      ∃ digits, digitsAfter? base label = some digits ∧ Text.digitsValue digits = n := by
  unfold digitsAfter?
  simp only [Option.bind_eq_some_iff, afterBase_eq_some_iff]
  constructor
  · intro ⟨blanks, digits, lineEnd, hlabel, hblanks, hdigits, hend, hvalue⟩
    obtain ⟨tail, hscan, htail⟩ := scan_eq hblanks hdigits hend
    refine ⟨digits, ⟨_, hlabel, ?_⟩, hvalue⟩
    rw [hscan]
    exact if_pos (dropBreak_eq_nil_iff.mpr htail)
  · intro ⟨digits, ⟨rest, hrest, hscan⟩, hvalue⟩
    rw [List.span_eq_takeWhile_dropWhile] at hscan
    dsimp only at hscan
    split at hscan
    · rename_i htail
      obtain rfl := Option.some.inj hscan
      refine ⟨rest.takeWhile Text.isBlank, _, _, ?_, ?_, ?_, dropBreak_eq_nil_iff.mp htail, hvalue⟩
      · rw [List.takeWhile_append_dropWhile, List.takeWhile_append_dropWhile]
        exact hrest
      · exact fun c hc => List.mem_takeWhile_imp hc
      · exact fun c hc => List.mem_takeWhile_imp hc
    · cases hscan

/-! The next label. -/

/-- The numbers that labels count as after a base. A label that is not present counts as an empty
text. -/
def numbersAfter (base : String) (labels : List Json) : Set Nat :=
  {n | ∃ label ∈ labels, ∃ text, label.orElse (.str "") = .str text ∧ CountsAs base text n}

theorem orElse_empty_str (text : String) : (Json.str text).orElse (.str "") = .str text := by
  by_cases hempty : text = ""
  · rw [hempty]
    rfl
  · exact if_pos (by simpa [Json.isPresent] using hempty)

theorem numberOf_eq_ok {digits : List Char} {n : Nat} (h : numberOf digits = .ok n) :
    Text.digitsValue digits = n := by
  unfold numberOf at h
  split at h
  · cases h
  · exact Except.ok.inj h

theorem mapM_numberOf_eq_ok {base text : String} {found : Option Nat}
    (h : (digitsAfter? base text).mapM numberOf = .ok found) (n : Nat) :
    found = some n ↔ CountsAs base text n := by
  rw [countsAs_iff]
  cases hdigits : digitsAfter? base text with
  | none =>
    rw [hdigits] at h
    cases h
    simp
  | some digits =>
    rw [hdigits] at h
    obtain ⟨number, hvalue, hfound⟩ := Except.map_eq_ok.mp h
    rw [← hfound, ← numberOf_eq_ok hvalue]
    simp

theorem numberOfAny?_eq_ok {base : String} {label : Json} {found : Option Nat}
    (h : numberOfAny? base label = .ok found) (n : Nat) :
    found = some n ↔ ∃ text, label.orElse (.str "") = .str text ∧ CountsAs base text n := by
  unfold numberOfAny? at h
  dsimp only at h
  split at h
  · rename_i text hlabel
    rw [mapM_numberOf_eq_ok h n]
    constructor
    · exact fun hcounts => ⟨text, hlabel, hcounts⟩
    · rintro ⟨other, hother, hcounts⟩
      rw [hlabel, Json.str.injEq] at hother
      exact hother ▸ hcounts
  · cases h

theorem mem_numbers_iff {base : String} {labels : List Json} {numbers : List Nat}
    (h : labels.filterMapM (numberOfAny? base) = .ok numbers) (n : Nat) :
    n ∈ numbers ↔ n ∈ numbersAfter base labels := by
  induction labels generalizing numbers with
  | nil =>
    cases h
    simp [numbersAfter]
  | cons label rest ih =>
    rw [List.filterMapM_cons] at h
    obtain ⟨found, hfound, h⟩ := Except.bind_eq_ok.mp h
    have hhead := numberOfAny?_eq_ok hfound n
    have hsplit : n ∈ numbersAfter base (label :: rest) ↔
        found = some n ∨ n ∈ numbersAfter base rest := by
      rw [hhead]
      simp [numbersAfter]
    rw [hsplit]
    cases found with
    | none => simpa using ih h
    | some number =>
      obtain ⟨others, hothers, hnumbers⟩ := Except.bind_eq_ok.mp h
      cases hnumbers
      rw [List.mem_cons, ih hothers, Option.some_inj, eq_comm]

theorem numberOfAny?_str (base text : String) :
    numberOfAny? base (.str text) = (digitsAfter? base text).mapM numberOf := by
  unfold numberOfAny?
  rw [orElse_empty_str]
  rfl

/-- Labels that are all texts are numbered as labels of any kind are. -/
theorem nextLabel_eq_among (base : String) (labels : List String) :
    nextLabel base labels = nextLabelAmong base (labels.map .str) := by
  have hnumbers : (labels.filterMap (digitsAfter? base)).mapM numberOf =
      (labels.map Json.str).filterMapM (numberOfAny? base) := by
    induction labels with
    | nil => rfl
    | cons label rest ih =>
      rw [List.map_cons, List.filterMapM_cons, numberOfAny?_str, ← ih]
      cases hdigits : digitsAfter? base label with
      | none =>
        rw [List.filterMap_cons_none hdigits]
        rfl
      | some digits =>
        rw [List.filterMap_cons_some hdigits, List.mapM_cons]
        cases hnumber : numberOf digits with
        | error fault => simp [hnumber, bind, Except.bind, Functor.map, Except.map]
        | ok n => simp [hnumber, bind, Except.bind, Functor.map, Except.map]
  rw [nextLabel, nextLabelAmong, hnumbers]

theorem le_largest {numbers : List Nat} {n : Nat} (h : n ∈ numbers) : n ≤ largest numbers := by
  induction numbers with
  | nil => cases h
  | cons first rest ih =>
    rw [largest]
    rcases List.mem_cons.mp h with rfl | hrest
    · omega
    · have hle := ih hrest
      omega

theorem largest_mem {numbers : List Nat} (h : numbers ≠ []) : largest numbers ∈ numbers := by
  induction numbers with
  | nil => exact absurd rfl h
  | cons first rest ih =>
    rw [largest]
    by_cases hle : largest rest ≤ first
    · rw [Nat.max_eq_left hle]
      exact List.mem_cons_self
    · have hrest : rest ≠ [] := by
        intro hnil
        rw [hnil] at hle
        exact hle (Nat.zero_le _)
      rw [Nat.max_eq_right (by omega)]
      exact List.mem_cons_of_mem _ (ih hrest)

theorem labelAfter_eq_ok {base label : String} {numbers : List Nat}
    (h : labelAfter base numbers = .ok label) :
    label = base ++ " " ++ toString (if numbers.isEmpty then 1 else largest numbers + 1) := by
  unfold labelAfter at h
  -- The bound is a power too large to be computed.
  generalize Nat.pow 10 Numeral.digitLimit = bound at h
  generalize (if numbers.isEmpty then 1 else largest numbers + 1) = next at h ⊢
  dsimp only at h
  split at h
  · cases h
  · exact (Except.ok.inj h).symm

/-- The label that follows numbered ones is none of them. It has the number after the largest of
theirs, or one when there are none. -/
structure Follows (base : String) (labels : List Json) (label : String) : Prop where
  fresh : .str label ∉ labels
  number : (∃ m, IsGreatest (numbersAfter base labels) m ∧
      label = base ++ " " ++ toString (m + 1)) ∨
    (numbersAfter base labels = ∅ ∧ label = base ++ " 1")

/-- A label would count itself if it were in use. -/
theorem not_mem_of_not_counted {base : String} {labels : List Json} {n : Nat}
    (h : n ∉ numbersAfter base labels) : .str (base ++ " " ++ toString n) ∉ labels := by
  intro hmem
  exact h ⟨_, hmem, _, orElse_empty_str _, countsAs_numbered base n⟩

theorem follows_of_nextLabelAmong {base label : String} {labels : List Json}
    (h : nextLabelAmong base labels = .ok label) : Follows base labels label := by
  obtain ⟨numbers, hnumbers, hafter⟩ := Except.bind_eq_ok.mp h
  have hmem := mem_numbers_iff hnumbers
  have hlabel := labelAfter_eq_ok hafter
  by_cases hnone : numbers = []
  · rw [hnone] at hmem hlabel
    have hempty : numbersAfter base labels = ∅ := by
      ext n
      rw [← hmem]
      simp
    have hone : base ++ " " ++ toString 1 = base ++ " 1" := String.append_assoc
    refine ⟨?_, Or.inr ⟨hempty, hlabel.trans hone⟩⟩
    rw [hlabel]
    refine not_mem_of_not_counted fun hcounted => ?_
    rw [hempty] at hcounted
    exact hcounted
  · rw [if_neg (by simpa using hnone)] at hlabel
    have hgreatest : IsGreatest (numbersAfter base labels) (largest numbers) := by
      refine ⟨(hmem _).mp (largest_mem hnone), fun n hn => ?_⟩
      exact le_largest ((hmem n).mpr hn)
    rw [hlabel]
    refine ⟨not_mem_of_not_counted fun hcounted => ?_, Or.inl ⟨_, hgreatest, rfl⟩⟩
    have hle := hgreatest.2 hcounted
    omega

theorem follows_of_nextLabel {base label : String} {labels : List String}
    (h : nextLabel base labels = .ok label) : Follows base (labels.map .str) label :=
  follows_of_nextLabelAmong (nextLabel_eq_among base labels ▸ h)

end Numbering

/-- A label was added behind others, and it is none of them. -/
structure AddsFresh (before after : List Json) (label : Json) : Prop where
  added : after = before ++ [label]
  fresh : label ∉ before

/-! Editors that keep the declared kinds. -/

namespace Editor

variable {e : Editor} {node : Node}

def labels (e : Editor) : List Json := e.nodes.map fun node => .str node.data.label

theorem follows_of_nextLabel {base label : String} (h : e.nextLabel base = .ok label) :
    Numbering.Follows base e.labels label := by
  have hfollows := Numbering.follows_of_nextLabel h
  rw [List.map_map] at hfollows
  exact hfollows

theorem newNode_label {t : NodeType} {position : Position} {config : Fields} {id : Option String}
    (h : e.newNode t position config id = .ok node) :
    ∃ base, e.nextLabel base = .ok node.data.label := by
  obtain ⟨label, hlabel, h⟩ := Except.bind_eq_ok.mp h
  cases hgiven : id.filter (!·.isEmpty) with
  | some given =>
    rw [hgiven] at h
    obtain ⟨_, -, h⟩ := Except.bind_eq_ok.mp h
    cases h
    exact ⟨_, hlabel⟩
  | none =>
    rw [hgiven] at h
    cases h
    exact ⟨_, hlabel⟩

theorem copyNode_label {copy : Node} {offset : Double} (h : e.copyNode node offset = .ok copy) :
    ∃ base, e.nextLabel base = .ok copy.data.label := by
  obtain ⟨label, hlabel, h⟩ := Except.bind_eq_ok.mp h
  cases h
  exact ⟨_, hlabel⟩

theorem labels_append (nodes : List Node) (node : Node) :
    labels { e with nodes := nodes ++ [node] } =
      labels { e with nodes := nodes } ++ [.str node.data.label] := by
  simp [labels]

theorem addsFresh_createNode {type : String} {position : Position} {config : Fields}
    {id : Option String} (h : (e.createNode type position config id).result = .ok (some node)) :
    AddsFresh e.labels (e.createNode type position config id).editor.labels
      (.str node.data.label) := by
  unfold createNode at h ⊢
  split at h
  · cases h
  · rename_i t htype
    cases hnew : e.newNode t position config id with
    | error fault =>
      rw [hnew] at h
      cases h
    | ok created =>
      simp only [hnew] at h ⊢
      unfold addNode at h ⊢
      split at h
      · cases h
      · rename_i hfree
        obtain rfl := Option.some.inj (Except.ok.inj h)
        obtain ⟨base, hlabel⟩ := newNode_label hnew
        rw [if_neg hfree]
        exact ⟨labels_append e.nodes created, (follows_of_nextLabel hlabel).fresh⟩

theorem addsFresh_duplicateNode {id : String} {offset : Double}
    (h : (e.duplicateNode id offset).result = .ok (some node)) :
    AddsFresh e.labels (e.duplicateNode id offset).editor.labels (.str node.data.label) := by
  unfold duplicateNode at h ⊢
  split at h
  · cases h
  · rename_i original horiginal
    split at h
    · cases h
    · rename_i hflow
      cases hcopy : e.copyNode original offset with
      | error fault =>
        rw [hcopy] at h
        cases h
      | ok copy =>
        simp only [hcopy] at h ⊢
        obtain rfl := Option.some.inj (Except.ok.inj h)
        obtain ⟨base, hlabel⟩ := copyNode_label hcopy
        simp only [hflow]
        exact ⟨labels_append e.nodes copy, (follows_of_nextLabel hlabel).fresh⟩

end Editor

/-! Editors that take values of any kind. -/

namespace LooseEditor

variable {e : LooseEditor} {α : Type}

def labels (e : LooseEditor) : List Json := e.nodes.map (·.data.label)

theorem labels_settled (e : LooseEditor) : e.settled.labels = e.labels := by
  have hlabel : ∀ node : LooseNode, node.fillDataId.data.label = node.data.label := by
    intro node
    unfold LooseNode.fillDataId
    split <;> rfl
  simp [labels, settled, hlabel]

theorem deciding_eq_ok {β : Type} {decision : Except Fault β} {next : β → Outcome LooseEditor α}
    {value : α} (h : (e.deciding decision next).result = .ok value) :
    ∃ b, decision = .ok b ∧ e.deciding decision next = next b := by
  cases decision with
  | ok b => exact ⟨b, rfl, rfl⟩
  | error fault => cases h

theorem follows_of_nextLabel {base label : String} (h : e.nextLabel base = .ok label) :
    Numbering.Follows base e.labels label :=
  Numbering.follows_of_nextLabelAmong h

theorem newNode_label {type : Json} {position : Position} {config id : Json} {node : Node}
    (h : e.newNode type position config id = .ok node) :
    ∃ base, e.nextLabel base = .ok node.data.label := by
  unfold newNode at h
  split at h
  · cases h
  · obtain ⟨label, hlabel, h⟩ := Except.bind_eq_ok.mp h
    obtain ⟨fields, -, h⟩ := Except.bind_eq_ok.mp h
    obtain ⟨config, -, h⟩ := Except.bind_eq_ok.mp h
    obtain ⟨id, -, h⟩ := Except.bind_eq_ok.mp h
    cases h
    exact ⟨_, hlabel⟩

theorem copyNode_label {node copy : LooseNode} {offset : Json}
    (h : e.copyNode node offset = .ok copy) :
    ∃ base label, e.nextLabel base = .ok label ∧ copy.data.label = .str label := by
  obtain ⟨id, -, h⟩ := Except.bind_eq_ok.mp h
  obtain ⟨stem, -, h⟩ := Except.bind_eq_ok.mp h
  obtain ⟨_, -, h⟩ := Except.bind_eq_ok.mp h
  obtain ⟨label, hlabel, h⟩ := Except.bind_eq_ok.mp h
  obtain ⟨position, -, h⟩ := Except.bind_eq_ok.mp h
  obtain ⟨type, -, h⟩ := Except.bind_eq_ok.mp h
  cases h
  exact ⟨_, label, hlabel, rfl⟩

theorem labels_addNode {node added : LooseNode} (h : (e.addNode node).result = .ok (some added)) :
    added = node ∧ (e.addNode node).editor.labels = e.labels ++ [node.data.label] := by
  unfold addNode at h ⊢
  split at h
  · cases h
  · rename_i hfree
    rw [if_neg hfree]
    have hseen : (if node.isAppInfo then e.settled else e).labels = e.labels := by
      split
      · exact labels_settled e
      · rfl
    dsimp only at h ⊢
    generalize (if node.isAppInfo = true then e.settled else e) = seen at h hseen ⊢
    split at h
    · cases h
    · rename_i hsingle
      rw [if_neg hsingle, ← hseen]
      exact ⟨(Option.some.inj (Except.ok.inj h)).symm, List.map_append⟩

theorem addsFresh_createNode {type : Json} {position : Position} {config id : Json}
    {node : LooseNode} (h : (e.createNode type position config id).result = .ok (some node)) :
    AddsFresh e.labels (e.createNode type position config id).editor.labels node.data.label := by
  unfold createNode at h ⊢
  obtain ⟨created, hnew, hnext⟩ := deciding_eq_ok h
  rw [hnext] at h ⊢
  obtain ⟨rfl, hlabels⟩ := labels_addNode h
  obtain ⟨base, hlabel⟩ := newNode_label hnew
  exact ⟨hlabels, (follows_of_nextLabel hlabel).fresh⟩

theorem addsFresh_duplicateNode {id offset : Json} {node : LooseNode}
    (h : (e.duplicateNode id offset).result = .ok (some node)) :
    AddsFresh e.labels (e.duplicateNode id offset).editor.labels node.data.label := by
  unfold duplicateNode at h ⊢
  split at h
  · cases h
  · rename_i original horiginal
    split at h
    · cases h
    · rename_i hflow
      simp only [hflow]
      obtain ⟨copy, hcopy, hnext⟩ := deciding_eq_ok h
      simp only [Bool.false_eq_true, if_false, hnext] at h ⊢
      obtain ⟨base, label, hlabel, hcopied⟩ := copyNode_label hcopy
      obtain rfl := Option.some.inj (Except.ok.inj h)
      refine ⟨by simp [labels, edited], ?_⟩
      rw [hcopied]
      exact (follows_of_nextLabel hlabel).fresh

end LooseEditor

/-- The label that is generated after a base follows the labels in use, and a node that is created
or copied gets a label that none of the nodes before it has. -/
theorem new_labels_follow :
    (∀ (e : Editor) (base label : String), e.nextLabel base = .ok label →
      Numbering.Follows base e.labels label) ∧
    (∀ (e : Editor) (type : String) (position : Position) (config : Fields) (id : Option String)
      (node : Node), (e.createNode type position config id).result = .ok (some node) →
      AddsFresh e.labels (e.createNode type position config id).editor.labels
        (.str node.data.label)) ∧
    (∀ (e : Editor) (id : String) (offset : Double) (node : Node),
      (e.duplicateNode id offset).result = .ok (some node) →
      AddsFresh e.labels (e.duplicateNode id offset).editor.labels (.str node.data.label)) ∧
    (∀ (e : LooseEditor) (base label : String), e.nextLabel base = .ok label →
      Numbering.Follows base e.labels label) ∧
    (∀ (e : LooseEditor) (type : Json) (position : Position) (config id : Json)
      (node : LooseNode), (e.createNode type position config id).result = .ok (some node) →
      AddsFresh e.labels (e.createNode type position config id).editor.labels node.data.label) ∧
    ∀ (e : LooseEditor) (id offset : Json) (node : LooseNode),
      (e.duplicateNode id offset).result = .ok (some node) →
      AddsFresh e.labels (e.duplicateNode id offset).editor.labels node.data.label := by
  refine ⟨?_, ?_, ?_, ?_, ?_, ?_⟩
  · intro e base label h
    exact Editor.follows_of_nextLabel h
  · intro e type position config id node h
    exact Editor.addsFresh_createNode h
  · intro e id offset node h
    exact Editor.addsFresh_duplicateNode h
  · intro e base label h
    exact LooseEditor.follows_of_nextLabel h
  · intro e type position config id node h
    exact LooseEditor.addsFresh_createNode h
  · intro e id offset node h
    exact LooseEditor.addsFresh_duplicateNode h

/-- Chat nodes without a number, with the number seven in another script before a line break, and
with a letter after the number. -/
def chats : Editor :=
  { Editor.empty .builtIn ⟨[]⟩ (.str "") 0 with
    nodes := [("a", "LLM Chat"), ("b", "LLM Chat\t\u0667\n"), ("c", "LLM Chat 12b")].map fun row =>
      ⟨row.1, "custom", .origin, Catalog.builtIn.newData .llmChat none row.2 [], []⟩ }

/-- The same nodes after the label of the first was set to null. -/
def unlabelledChats : LooseEditor :=
  ((LooseEditor.ofEditor chats).poke (.data (.str "a") (.str "node_label") .null)).1

theorem new_labels_follow_chats :
    (chats.nextLabel "LLM Chat" = .ok "LLM Chat 8" ∧
      Numbering.Follows "LLM Chat" chats.labels "LLM Chat 8") ∧
    (∃ node, (chats.createNode "LLM_CHAT" .origin [] none).result = .ok (some node) ∧
      AddsFresh chats.labels (chats.createNode "LLM_CHAT" .origin [] none).editor.labels
        (.str node.data.label)) ∧
    (∃ node, (chats.duplicateNode "b" (.ofInt 50)).result = .ok (some node) ∧
      AddsFresh chats.labels (chats.duplicateNode "b" (.ofInt 50)).editor.labels
        (.str node.data.label)) ∧
    (unlabelledChats.nextLabel "LLM Chat" = .ok "LLM Chat 8" ∧
      Numbering.Follows "LLM Chat" unlabelledChats.labels "LLM Chat 8") ∧
    (∃ node, (unlabelledChats.createNode (.str "LLM_CHAT") .origin .null .null).result =
        .ok (some node) ∧
      AddsFresh unlabelledChats.labels
        (unlabelledChats.createNode (.str "LLM_CHAT") .origin .null .null).editor.labels
        node.data.label) ∧
    ∃ node, (unlabelledChats.duplicateNode (.str "a") (.int 50)).result = .ok (some node) ∧
      AddsFresh unlabelledChats.labels
        (unlabelledChats.duplicateNode (.str "a") (.int 50)).editor.labels node.data.label := by
  obtain ⟨hnext, hcreate, hduplicate, hloose, hlooseCreate, hlooseDuplicate⟩ := new_labels_follow
  have hlabel : chats.nextLabel "LLM Chat" = .ok "LLM Chat 8" :=
    Except.eq_ok_of_toOption (by decide +kernel)
  have hlooseLabel : unlabelledChats.nextLabel "LLM Chat" = .ok "LLM Chat 8" :=
    Except.eq_ok_of_toOption (by decide +kernel)
  obtain ⟨created, hcreated⟩ := Option.isSome_iff_exists.mp
    (show (chats.createNode "LLM_CHAT" .origin [] none).result.toOption.join.isSome = true by
      decide +kernel)
  have hcreated := Except.eq_ok_of_toOption (Option.join_eq_some_iff.mp hcreated)
  obtain ⟨copied, hcopied⟩ := Option.isSome_iff_exists.mp
    (show (chats.duplicateNode "b" (.ofInt 50)).result.toOption.join.isSome = true by
      decide +kernel)
  have hcopied := Except.eq_ok_of_toOption (Option.join_eq_some_iff.mp hcopied)
  obtain ⟨loose, hmade⟩ := Option.isSome_iff_exists.mp
    (show (unlabelledChats.createNode (.str "LLM_CHAT") .origin .null
      .null).result.toOption.join.isSome = true by decide +kernel)
  have hmade := Except.eq_ok_of_toOption (Option.join_eq_some_iff.mp hmade)
  obtain ⟨twin, htwin⟩ := Option.isSome_iff_exists.mp
    (show (unlabelledChats.duplicateNode (.str "a")
      (.int 50)).result.toOption.join.isSome = true by decide +kernel)
  have htwin := Except.eq_ok_of_toOption (Option.join_eq_some_iff.mp htwin)
  exact ⟨⟨hlabel, hnext _ _ _ hlabel⟩, ⟨created, hcreated, hcreate _ _ _ _ _ _ hcreated⟩,
    ⟨copied, hcopied, hduplicate _ _ _ _ hcopied⟩,
    ⟨hlooseLabel, hloose _ _ _ hlooseLabel⟩, ⟨loose, hmade, hlooseCreate _ _ _ _ _ _ hmade⟩,
    ⟨twin, htwin, hlooseDuplicate _ _ _ _ htwin⟩⟩

end WorkflowStudio
