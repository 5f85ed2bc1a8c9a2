import WorkflowStudio.Log.Record
import WorkflowStudio.Proofs.JsonText
import WorkflowStudio.Proofs.RecordFields

/-!
Records that are written for people and then once more. The first writing leaves its colours and
the context in the record, so no later writing shows what it would have shown: an object names a
coloured level, and a line has the colours of the first one inside of its own.
-/
namespace WorkflowStudio

/-! A written text is told from all other values, whatever stands behind it. -/

namespace Json

theorem logged_text_head (x : Double) :
    ∃ c tail, (Decimal.logged.text x).toList = c :: tail ∧ c ≠ '"' := by
  have hdigit {c : Char} (h : Numeral.isPlainDigit c = true) : c ≠ '"' := by
    rintro rfl
    exact absurd h (by decide)
  unfold Decimal.Layout.text
  split
  · exact ⟨'N', _, rfl, by decide⟩
  split
  · split
    · exact ⟨'-', _, rfl, by decide⟩
    · exact ⟨'I', _, rfl, by decide⟩
  obtain ⟨c, tail, htext, hc⟩ := startsWithDigit_magnitudeText Decimal.logged (Decimal.shortest x)
  rw [String.toList_ofList, htext]
  split
  · exact ⟨'-', c :: tail, rfl, by decide⟩
  · exact ⟨c, tail, rfl, hdigit hc⟩

/-- Only a text begins with a quote. -/
theorem write_spaced_head (v : Json) :
    ∃ c tail, write spaced v = c :: tail ∧ (c = '"' → ∃ s, v = .str s) := by
  have hother {c : Char} {tail : List Char} (h : write spaced v = c :: tail) (hc : c ≠ '"') :
      ∃ c tail, write spaced v = c :: tail ∧ (c = '"' → ∃ s, v = .str s) :=
    ⟨c, tail, h, fun hquote => absurd hquote hc⟩
  cases v with
  | str s => exact ⟨'"', _, rfl, fun _ => ⟨s, rfl⟩⟩
  | null => exact hother rfl (by decide)
  | bool b => cases b <;> exact hother rfl (by decide)
  | int n =>
    obtain ⟨c, digits, hdigits, hc⟩ := startsWithDigit_wholeDigits n.natAbs
    have htext : write spaced (.int n) = (if decide (n < 0) then ['-'] else []) ++ c :: digits := by
      rw [write, intText_toList, hdigits]
    split at htext
    · exact hother htext (by decide)
    · refine hother htext ?_
      rintro rfl
      exact absurd hc (by decide)
  | num x =>
    obtain ⟨c, rest, htext, hc⟩ := logged_text_head x
    exact hother (by rw [write]; exact htext) hc
  | arr items => exact hother rfl (by decide)
  | obj fields => exact hother rfl (by decide)

theorem eq_str_of_write_append {v : Json} {s : String} {rest tail : List Char}
    (h : write spaced v ++ rest = write spaced (.str s) ++ tail) : v = .str s := by
  obtain ⟨c, cs, hwritten, hquote⟩ := write_spaced_head v
  have hc : c = '"' := by
    rw [hwritten] at h
    exact (List.cons.inj h).1
  obtain ⟨t, rfl⟩ := hquote hc
  have htails : (writeString false t).tail ++ rest = (writeString false s).tail ++ tail :=
    (List.cons.inj h).2
  have hread : readString strict ((writeString false t).tail ++ rest) = some (t, rest) :=
    readString_writeString t rest
  rw [htails, readString_writeString] at hread
  rw [(Prod.mk.inj (Option.some.inj hread)).1]

theorem map_checkDigits_eq_ok_iff {v : Json} {text s : String} :
    (v.checkDigits.map fun _ => text) = .ok s ↔ v.holdsOverlong = false ∧ s = text := by
  unfold checkDigits
  cases v.holdsOverlong with
  | true =>
    refine iff_of_false nofun ?_
    rintro ⟨hno, -⟩
    cases hno
  | false => exact ⟨fun h => ⟨rfl, (Except.ok.inj h).symm⟩, fun h => congrArg Except.ok h.2.symm⟩

theorem shown_eq_ok_iff {v : Json} {s : String} :
    v.shown = .ok s ↔ v.holdsOverlong = false ∧ s = v.display := map_checkDigits_eq_ok_iff

theorem written_eq_ok_iff {style : Style} {v : Json} {s : String} :
    v.written style = .ok s ↔ v.holdsOverlong = false ∧ s = v.text style :=
  map_checkDigits_eq_ok_iff

/-- Every field of an object that is written can be written. -/
theorem not_holdsOverlong_of_mem {fs : Fields} {field : String × Json}
    (h : (obj fs).holdsOverlong = false) (hmem : field ∈ fs) : field.2.holdsOverlong = false := by
  have hfields : fieldsHoldOverlong fs = false := h
  clear h
  induction fs with
  | nil => exact absurd hmem List.not_mem_nil
  | cons first rest ih =>
    rw [fieldsHoldOverlong, Bool.or_eq_false_iff] at hfields
    rcases List.mem_cons.mp hmem with rfl | hrest
    · exact hfields.1
    · exact ih hrest hfields.2

end Json

namespace LogRecord

variable {r : LogRecord} {service : Json}

/-! What becomes of a record. -/

/-- The name of a level between its colour and the end of the colour. -/
def highlightedName (r : LogRecord) : String :=
  colorOf r.levelName ++ r.levelName.display ++ resetColor

/-- A record keeps its time and the name of its logger. -/
theorem highlight_kept (r : LogRecord) :
    r.highlight.1.time = r.time ∧ r.highlight.1.name = r.name := by
  unfold highlight
  split
  · exact ⟨rfl, rfl⟩
  · dsimp only
    split
    · exact ⟨rfl, rfl⟩
    · exact ⟨rfl, rfl⟩

/-- The name of a level is coloured unless it has no text. -/
theorem highlight_levelName (h : r.levelName.holdsOverlong = false) :
    r.highlight.1.levelName = .str r.highlightedName := by
  have hshown : r.levelName.shown = .ok r.levelName.display := Json.shown_eq_ok_iff.mpr ⟨h, rfl⟩
  have hlevel : r.coloredLevel = .ok r.highlightedName := by
    rw [coloredLevel, hshown]
    rfl
  unfold highlight
  rw [hlevel]
  dsimp only
  split
  · rfl
  · rfl

theorem levelName_of_highlight {left : LogRecord} (h : r.highlight = (left, .ok ())) :
    left.levelName = .str r.highlightedName := by
  have hshort : r.levelName.holdsOverlong = false := by
    cases hname : r.levelName.shown with
    | ok name => exact (Json.shown_eq_ok_iff.mp hname).1
    | error fault =>
      have hlevel : r.coloredLevel = .error fault := by rw [coloredLevel, hname]; rfl
      rw [highlight, hlevel] at h
      cases h
  rw [← highlight_levelName hshort, h]

/-! Objects. -/

/-- The level stands behind the time and before the name of the logger. -/
theorem fields_front {fs : Fields} (h : r.fields service = .ok fs) : ∃ time rest,
    r.time >>= Amount.recordTime = .ok time ∧
      fs = ("timestamp", .str time) :: ("level", r.levelName) :: ("logger", r.name) :: rest := by
  obtain ⟨amount, hamount, hrest⟩ := Except.bind_eq_ok.mp h
  obtain ⟨time, htime, hmessage⟩ := Except.bind_eq_ok.mp hrest
  obtain ⟨message, -, hexception⟩ := Except.bind_eq_ok.mp hmessage
  obtain ⟨exception, -, herror⟩ := Except.bind_eq_ok.mp hexception
  obtain ⟨isError, -, hfields⟩ := Except.bind_eq_ok.mp herror
  exact ⟨time, _, Except.bind_eq_ok.mpr ⟨amount, hamount, htime⟩, (Except.ok.inj hfields).symm⟩

/-- Objects of one time can only be written alike when they name one level. -/
theorem levelName_of_text {other : LogRecord} {fs gs : Fields} {name : String}
    (hfs : r.fields service = .ok fs) (hgs : other.fields service = .ok gs)
    (htime : r.time = other.time) (hname : other.levelName = .str name)
    (htext : (Json.obj fs).text Json.spaced = (Json.obj gs).text Json.spaced) :
    r.levelName = .str name := by
  obtain ⟨time, rest, hfirst, rfl⟩ := fields_front hfs
  obtain ⟨again, tail, hsecond, rfl⟩ := fields_front hgs
  obtain rfl : time = again := by
    rw [htime, hsecond] at hfirst
    exact (Except.ok.inj hfirst).symm
  have hwritten := String.ofList_injective htext
  rw [Json.write, Json.write, Json.writeFields_cons_cons, Json.writeFields_cons_cons,
    Json.writeFields_cons_cons, Json.writeFields_cons_cons, hname] at hwritten
  simp only [List.append_assoc, List.cons.injEq, List.append_cancel_left_eq,
    true_and] at hwritten
  exact Json.eq_str_of_write_append hwritten

theorem levelName_ne_highlightedName (r : LogRecord) :
    r.levelName ≠ .str r.highlightedName := by
  intro hsame
  have hlength := congrArg (fun v => v.display.toList.length) hsame
  have hreset : resetColor.toList.length = 4 := rfl
  have hdisplay : (Json.str r.highlightedName).display =
    colorOf r.levelName ++ r.levelName.display ++ resetColor := rfl
  simp only [hdisplay, String.toList_append, List.length_append] at hlength
  omega

/-- Objects of a record differ before and after it is highlighted. -/
theorem text_highlight_ne {fs gs : Fields} (hfs : r.fields service = .ok fs)
    (hshort : (Json.obj fs).holdsOverlong = false)
    (hgs : r.highlight.1.fields service = .ok gs) :
    (Json.obj fs).text Json.spaced ≠ (Json.obj gs).text Json.spaced := by
  intro htext
  have hlevel : r.levelName.holdsOverlong = false := by
    obtain ⟨time, rest, -, rfl⟩ := fields_front hfs
    exact Json.not_holdsOverlong_of_mem hshort
      (List.mem_cons_of_mem _ List.mem_cons_self : ("level", r.levelName) ∈ _)
  exact levelName_ne_highlightedName r
    (levelName_of_text hfs hgs (highlight_kept r).1.symm (highlight_levelName hlevel) htext)

/-! Lines. -/

/-- The colour of a level is one of the table or the one that ends a colour. -/
theorem colorOf_cases (v : Json) :
    colorOf v = resetColor ∨ ∃ name, (name, colorOf v) ∈ levelColors := by
  unfold colorOf
  cases hfound : levelColors.find? fun entry => Json.str entry.1 == v with
  | none => exact Or.inl rfl
  | some entry => exact Or.inr ⟨entry.1, List.mem_of_find?_eq_some hfound⟩

theorem colorOf_toList (v : Json) : ∃ tail, (colorOf v).toList = '\x1b' :: tail := by
  rcases colorOf_cases v with hreset | ⟨name, hcolor⟩
  · exact ⟨_, by rw [hreset]; rfl⟩
  · have hescapes : ∀ entry ∈ levelColors, entry.2.toList.head? = some '\x1b' := by decide
    exact List.head?_eq_some_iff.mp (hescapes _ hcolor)

/-- A colour of the table does not begin like the end of one. -/
theorem colorOf_append_ne {v : Json} {name : String} (h : (name, colorOf v) ∈ levelColors)
    (tail rest : List Char) : (colorOf v).toList ++ tail ≠ resetColor.toList ++ rest := by
  have hcolors : ∀ entry ∈ levelColors, 4 ≤ entry.2.toList.length ∧
      entry.2.toList.take 4 ≠ resetColor.toList.take 4 := by decide
  obtain ⟨hlength, hdiffers⟩ := hcolors _ h
  intro hsame
  have htaken := congrArg (List.take 4) hsame
  rw [List.take_append_of_le_length hlength, List.take_append_of_le_length (by decide)] at htaken
  exact hdiffers htaken

/-- No level is named by a text that has a colour already. -/
theorem colorOf_of_escape {s : String} {tail : List Char} (h : s.toList = '\x1b' :: tail) :
    colorOf (.str s) = resetColor := by
  have hnone : levelColors.find? (fun entry => Json.str entry.1 == .str s) = none := by
    rw [List.find?_eq_none]
    intro entry hentry hsame
    have hname : entry.1 = s := Json.str.inj (beq_iff_eq.mp hsame)
    have hplain : ∀ entry ∈ levelColors, entry.1.toList.head? ≠ some '\x1b' := by decide
    refine hplain entry hentry ?_
    rw [hname, h]
    rfl
  rw [colorOf, hnone]
  rfl

/-- A colour that ends cannot be moved over a text, as no blank begins one. -/
theorem append_reset_ne (level tail rest : List Char) :
    level ++ (resetColor.toList ++ ' ' :: tail) ≠
      resetColor.toList ++ (level ++ (resetColor.toList ++ (resetColor.toList ++ rest))) := by
  have hreset : resetColor.toList = ['\x1b', '[', '0', 'm'] := rfl
  rw [hreset]
  match level with
  | [] | [_] | [_, _] | [_, _, _] => simp
  | a :: b :: c :: d :: level =>
    have ih := append_reset_ne level tail rest
    rw [hreset] at ih
    intro h
    simp only [List.cons_append, List.nil_append, List.cons.injEq] at h
    obtain ⟨rfl, rfl, rfl, rfl, hrest⟩ := h
    exact ih hrest

/-- What a line begins with, up to its level. -/
theorem plainLine_front {line : String} (h : r.plainLine = .ok line) : ∃ time tail,
    r.time >>= Amount.lineTime = .ok time ∧ line.toList =
      (time ++ " - " ++ r.name.display ++ " - ").toList ++
        (r.levelName.display.toList ++ ' ' :: tail) := by
  obtain ⟨message, -, hrest⟩ := Except.bind_eq_ok.mp h
  obtain ⟨amount, hamount, hline⟩ := Except.bind_eq_ok.mp hrest
  obtain ⟨time, htime, hname⟩ := Except.bind_eq_ok.mp hline
  obtain ⟨name, hshown, hlevel⟩ := Except.bind_eq_ok.mp hname
  obtain ⟨level, hlevelShown, hwhole⟩ := Except.bind_eq_ok.mp hlevel
  rw [(Json.shown_eq_ok_iff.mp hshown).2, (Json.shown_eq_ok_iff.mp hlevelShown).2] at hwhole
  have hbegun : ∃ rest, line = time ++ " - " ++ r.name.display ++ " - " ++ r.levelName.display ++
      " - " ++ message ++ rest := by
    rw [← Except.ok.inj hwhole]
    split
    · exact ⟨_, String.append_assoc⟩
    · exact ⟨"", (String.append_empty).symm⟩
  obtain ⟨rest, rfl⟩ := hbegun
  refine ⟨time, "- ".toList ++ message.toList ++ rest.toList,
    Except.bind_eq_ok.mpr ⟨amount, hamount, htime⟩, ?_⟩
  simp only [String.toList_append, List.append_assoc]
  rfl

/-- A highlighted record that is highlighted again has another line. -/
theorem plainLine_highlight_ne {left again : LogRecord} {line : String}
    (hleft : r.highlight = (left, .ok ())) (h : left.plainLine = .ok line)
    (hagain : left.highlight = (again, .ok ())) : again.plainLine ≠ .ok line := by
  intro hsame
  obtain ⟨time, tail, hfirst, hline⟩ := plainLine_front h
  obtain ⟨later, rest, hsecond, hboth⟩ := plainLine_front hsame
  have hkept : again.time = left.time ∧ again.name = left.name := by
    have h := highlight_kept left
    rwa [hagain] at h
  obtain rfl : time = later := by
    rw [hkept.1] at hsecond
    exact Except.ok.inj (hfirst.symm.trans hsecond)
  rw [hline, hkept.2] at hboth
  have hlevels := List.append_cancel_left hboth
  have hdisplay (r : LogRecord) : (Json.str r.highlightedName).display.toList =
      (colorOf r.levelName).toList ++ (r.levelName.display.toList ++ resetColor.toList) := by
    change (colorOf r.levelName ++ r.levelName.display ++ resetColor).toList = _
    simp only [String.toList_append, List.append_assoc]
  have hlevel := levelName_of_highlight hleft
  obtain ⟨color, hcolor⟩ := colorOf_toList r.levelName
  have hreset : colorOf left.levelName = resetColor := by
    rw [hlevel]
    exact colorOf_of_escape ((hdisplay r).trans (by rw [hcolor, List.cons_append]))
  rw [levelName_of_highlight hagain, hdisplay left, hreset, hlevel, hdisplay r] at hlevels
  simp only [List.append_assoc] at hlevels
  rcases colorOf_cases r.levelName with hreset | ⟨name, hlisted⟩
  · rw [hreset] at hlevels
    exact append_reset_ne _ _ _ (List.append_cancel_left hlevels)
  · exact colorOf_append_ne hlisted _ _ hlevels

end LogRecord

/-- Results that never agree in a value agree exactly in their faults. -/
theorem Except.eq_iff_of_ne {ε α : Type} {a b : Except ε α} (h : ∀ x, a = .ok x → b ≠ .ok x) :
    b = a ↔ ∃ fault, a = .error fault ∧ b = .error fault := by
  constructor
  · rintro rfl
    cases b with
    | ok x => exact absurd rfl (h x rfl)
    | error fault => exact ⟨fault, rfl, rfl⟩
  · rintro ⟨fault, rfl, hb⟩
    exact hb

namespace LogForm

theorem fst_write_console (r : LogRecord) : (console.write r).1 = r.highlight.1 := by
  unfold write
  dsimp only
  split
  · rename_i hleft
    rw [hleft]
  · rename_i hleft
    rw [hleft]

theorem highlight_of_write_console {r : LogRecord} {line : String}
    (h : (console.write r).2 = .ok line) :
    ∃ left, r.highlight = (left, .ok ()) ∧ left.plainLine = .ok line := by
  unfold write at h
  dsimp only at h
  split at h
  · rename_i left _ hleft
    exact ⟨left, hleft, h⟩
  · cases h

/-- A record that was written for people is written another time in the way it was before only
where both attempts fail alike, be it as an object or for people once more. -/
theorem write_after_console (r : LogRecord) (service : Json) :
    (((json service).write (console.write r).1).2 = ((json service).write r).2 ↔
      ∃ fault, ((json service).write r).2 = .error fault ∧
        ((json service).write (console.write r).1).2 = .error fault) ∧
    ((console.write (console.write r).1).2 = (console.write r).2 ↔
      ∃ fault, (console.write r).2 = .error fault ∧
        (console.write (console.write r).1).2 = .error fault) := by
  constructor
  · refine Except.eq_iff_of_ne fun text hfirst hsecond => ?_
    obtain ⟨fs, hfs, htext⟩ := Except.bind_eq_ok.mp hfirst
    obtain ⟨gs, hgs, hagain⟩ := Except.bind_eq_ok.mp hsecond
    obtain ⟨hshort, rfl⟩ := Json.written_eq_ok_iff.mp htext
    rw [fst_write_console] at hgs
    exact LogRecord.text_highlight_ne hfs hshort hgs (Json.written_eq_ok_iff.mp hagain).2
  · refine Except.eq_iff_of_ne fun line hfirst hsecond => ?_
    obtain ⟨left, hleft, hline⟩ := highlight_of_write_console hfirst
    obtain ⟨again, hagain, hsame⟩ := highlight_of_write_console hsecond
    rw [fst_write_console, hleft] at hagain
    exact LogRecord.plainLine_highlight_ne hleft hline hagain hsame

end LogForm

/-! A warning that a console and a file are told of. -/

def LogRecord.warned : LogRecord where
  name := .str "flowcanvas.test"
  level := .int 30
  levelName := .str "WARNING"
  path := .str "test.py"
  line := .int 42
  function := .null
  message := .str "Test message"
  args := []
  created := .int 1700000000
  context := some (.obj [("index", .int 3)])
  error := none

/-- What was written is not written again where both attempts must fail alike for that. -/
theorem exists_ok_ne_of_iff {first again : Except Fault String}
    (h : again = first ↔ ∃ fault, first = .error fault ∧ again = .error fault)
    (hwritten : first.toOption.isSome = true) : ∃ text, first = .ok text ∧ again ≠ .ok text := by
  obtain ⟨text, htext⟩ := Option.isSome_iff_exists.mp hwritten
  have htext := Except.eq_ok_of_toOption htext
  refine ⟨text, htext, fun hagain => ?_⟩
  obtain ⟨fault, hfault, -⟩ := h.mp (hagain.trans htext.symm)
  cases htext.symm.trans hfault

theorem LogForm.write_after_console_warned :
    (∃ text, ((json (.str "FlowCanvas")).write .warned).2 = .ok text ∧
      ((json (.str "FlowCanvas")).write (console.write .warned).1).2 ≠ .ok text) ∧
    ∃ line, (console.write .warned).2 = .ok line ∧
      (console.write (console.write .warned).1).2 ≠ .ok line := by
  obtain ⟨hobject, hline⟩ := write_after_console .warned (.str "FlowCanvas")
  constructor
  · exact exists_ok_ne_of_iff hobject (by decide +kernel)
  · exact exists_ok_ne_of_iff hline (by decide +kernel)

end WorkflowStudio
