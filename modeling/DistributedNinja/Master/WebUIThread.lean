import DistributedNinja.Lib.Printf
import DistributedNinja.Lib.Run

namespace DistributedNinja.Master

open Lib

/-- The results the FILE thread keeps, and the body of each answer to `/api/result`; `none` is a body that is not
    defined. -/
structure WebUIThread where
  commandResults : List Text
  bodies : List (Option Text)

inductive WebUIEvent where
  | addCommandResult (json : Text)
  | getResult

namespace WebUIThread

def new : WebUIThread := ⟨[], []⟩

-- `mg_printf_data` of mongoose, without further arguments.
variable (mgPrintfData : Text → Option Text)

def printResults : List Text → Option Text
  | [] => some []
  | [json] => mgPrintfData json
  | json :: rest => do
    let result ← mgPrintfData json
    let comma ← mgPrintfData [',']
    let results ← printResults rest
    return result ++ comma ++ results

def handleGetResult (w : WebUIThread) : WebUIThread :=
  let body := do
    let opening ← mgPrintfData ['[']
    let results ← printResults mgPrintfData w.commandResults
    let closing ← mgPrintfData [']']
    return opening ++ results ++ closing
  ⟨[], w.bodies ++ [body]⟩

def step (w : WebUIThread) : WebUIEvent → WebUIThread
  | .addCommandResult json => { w with commandResults := w.commandResults ++ [json] }
  | .getResult => w.handleGetResult mgPrintfData

def serve (w : WebUIThread) (events : List WebUIEvent) : WebUIThread := events.foldl (step mgPrintfData) w

end WebUIThread

/-- The results that are added before each poll and after the one before it; `since` are those that wait. -/
def batches : List Text → List WebUIEvent → List (List Text)
  | _, [] => []
  | since, .addCommandResult json :: rest => batches (since ++ [json]) rest
  | since, .getResult :: rest => since :: batches [] rest

def WebUIEvent.added? : WebUIEvent → Option Text
  | .addCommandResult json => some json
  | .getResult => none

def verbatim (batch : List Text) : Text := ['['] ++ List.intercalate [','] batch ++ [']']

/-- What is assumed of mongoose: `mg_printf_data` formats its text as `printf` does. -/
def FormatsAsPrintf (mgPrintfData : Text → Option Text) : Prop := ∀ text, mgPrintfData text = printf (cString text)

/-- Each poll is answered with the results since the last one, and the polls together give every result once. -/
structure Delivered (mgPrintfData : Text → Option Text) (events : List WebUIEvent) : Prop where
  bodies : (WebUIThread.new.serve mgPrintfData events).bodies =
    (batches [] events).map fun batch => some (verbatim batch)
  once : (batches [] events).flatten ++ (WebUIThread.new.serve mgPrintfData events).commandResults =
    events.filterMap WebUIEvent.added?

namespace WebUIThread

variable {mgPrintfData : Text → Option Text} {batch : List Text} {events : List WebUIEvent} {body : Text}

theorem mgPrintfData_of_plain (formats : FormatsAsPrintf mgPrintfData) {text : Text} (plain : Plain text) :
    mgPrintfData text = some text := (formats text).trans (printf_cString_of_plain plain)

theorem printResults_cons (formats : FormatsAsPrintf mgPrintfData) (json : Text) {rest : List Text}
    (more : rest ≠ []) : printResults mgPrintfData (json :: rest) =
      (mgPrintfData json).bind fun result => (printResults mgPrintfData rest).map (result ++ [','] ++ ·) := by
  obtain ⟨next, others, rfl⟩ := List.exists_cons_of_ne_nil more
  have comma : mgPrintfData [','] = some [','] := mgPrintfData_of_plain formats (by decide)
  rw [printResults, comma]
  · cases mgPrintfData json with
    | none => rfl
    | some result =>
      cases printResults mgPrintfData (next :: others) with
      | none => rfl
      | some results => rfl
  · exact fun impossible => absurd impossible (List.cons_ne_nil _ _)

theorem printResults_of_plain (formats : FormatsAsPrintf mgPrintfData) (plain : ∀ json ∈ batch, Plain json) :
    printResults mgPrintfData batch = some (List.intercalate [','] batch) := by
  induction batch with
  | nil => rfl
  | cons json rest ih =>
    have first : mgPrintfData json = some json := mgPrintfData_of_plain formats (plain json List.mem_cons_self)
    cases rest with
    | nil =>
      rw [printResults, first, List.intercalate_singleton]
    | cons next others =>
      have later := ih fun other member => plain other (List.mem_cons_of_mem _ member)
      rw [printResults_cons formats json (List.cons_ne_nil _ _), first, later, List.intercalate_cons_cons]
      rfl

theorem mgPrintfData_length (formats : FormatsAsPrintf mgPrintfData) {text written : Text}
    (printed : mgPrintfData text = some written) :
    written.length ≤ text.length ∧ (written.length = text.length → Plain text) :=
  printf_cString_length ((formats text).symm.trans printed)

theorem printResults_length (formats : FormatsAsPrintf mgPrintfData) {printed : Text}
    (prints : printResults mgPrintfData batch = some printed) :
    printed.length ≤ (List.intercalate [','] batch).length ∧
      (printed.length = (List.intercalate [','] batch).length → ∀ json ∈ batch, Plain json) := by
  induction batch generalizing printed with
  | nil =>
    cases prints
    exact ⟨Nat.le_refl _, fun _ => List.forall_mem_nil _⟩
  | cons json rest ih =>
    cases rest with
    | nil =>
      obtain ⟨shorter, plain⟩ := mgPrintfData_length formats prints
      rw [List.intercalate_singleton]
      exact ⟨shorter, fun same => List.forall_mem_singleton.mpr (plain same)⟩
    | cons next others =>
      rw [printResults_cons formats json (List.cons_ne_nil _ _)] at prints
      obtain ⟨result, first, later⟩ := Option.bind_eq_some_iff.mp prints
      obtain ⟨results, printsRest, rfl⟩ := Option.map_eq_some_iff.mp later
      obtain ⟨shorter, plain⟩ := mgPrintfData_length formats first
      obtain ⟨shorterRest, plainRest⟩ := ih printsRest
      rw [List.intercalate_cons_cons]
      simp only [List.length_append]
      refine ⟨by omega, fun same => ?_⟩
      exact List.forall_mem_cons.mpr ⟨plain (by omega), plainRest (by omega)⟩

theorem handleGetResult_eq (formats : FormatsAsPrintf mgPrintfData) (w : WebUIThread) :
    w.handleGetResult mgPrintfData = ⟨[], w.bodies ++ [(printResults mgPrintfData w.commandResults).map fun results =>
      ['['] ++ results ++ [']']]⟩ := by
  have opening : mgPrintfData ['['] = some ['['] := mgPrintfData_of_plain formats (by decide)
  have closing : mgPrintfData [']'] = some [']'] := mgPrintfData_of_plain formats (by decide)
  rw [handleGetResult, opening, closing]
  cases printResults mgPrintfData w.commandResults <;> rfl

theorem body_verbatim_iff (formats : FormatsAsPrintf mgPrintfData) :
    ((printResults mgPrintfData batch).map fun results => ['['] ++ results ++ [']']) = some (verbatim batch) ↔
      ∀ json ∈ batch, Plain json := by
  constructor
  · intro answered
    obtain ⟨results, prints, same⟩ := Option.map_eq_some_iff.mp answered
    have whole : results = List.intercalate [','] batch :=
      List.append_cancel_left (List.append_cancel_right same)
    exact (printResults_length formats prints).2 (congrArg List.length whole)
  · intro plain
    rw [printResults_of_plain formats plain]
    rfl

theorem serve_cons (w : WebUIThread) (event : WebUIEvent) (events : List WebUIEvent) :
    w.serve mgPrintfData (event :: events) = (w.step mgPrintfData event).serve mgPrintfData events := rfl

theorem serve_bodies (formats : FormatsAsPrintf mgPrintfData) (w : WebUIThread) :
    (w.serve mgPrintfData events).bodies = w.bodies ++ (batches w.commandResults events).map fun batch =>
      (printResults mgPrintfData batch).map fun results => ['['] ++ results ++ [']'] := by
  induction events generalizing w with
  | nil => exact (List.append_nil _).symm
  | cons event events ih =>
    rw [serve_cons, ih]
    cases event with
    | addCommandResult json => rfl
    | getResult =>
      rw [step, handleGetResult_eq formats, batches, List.map_cons, List.append_assoc]
      rfl

theorem serve_commandResults (formats : FormatsAsPrintf mgPrintfData) (w : WebUIThread) :
    (batches w.commandResults events).flatten ++ (w.serve mgPrintfData events).commandResults =
      w.commandResults ++ events.filterMap WebUIEvent.added? := by
  induction events generalizing w with
  | nil => simp [batches, serve]
  | cons event events ih =>
    rw [serve_cons]
    cases event with
    | addCommandResult json =>
      have later := ih (w.step mgPrintfData (.addCommandResult json))
      simp only [step, List.append_assoc] at later
      exact later
    | getResult =>
      have later := ih (w.step mgPrintfData .getResult)
      rw [step, handleGetResult_eq formats] at later
      rw [step, handleGetResult_eq formats, batches, List.flatten_cons, List.append_assoc, later]
      rfl

/-- The polls deliver the results exactly when no result that is polled holds a conversion. -/
theorem delivered_iff (formats : FormatsAsPrintf mgPrintfData) (events : List WebUIEvent) :
    Delivered mgPrintfData events ↔ ∀ batch ∈ batches [] events, ∀ json ∈ batch, Plain json := by
  have bodies : (new.serve mgPrintfData events).bodies = (batches [] events).map fun batch =>
      (printResults mgPrintfData batch).map fun results => ['['] ++ results ++ [']'] := serve_bodies formats new
  constructor
  · intro delivered batch member
    have same := delivered.bodies
    rw [bodies] at same
    exact (body_verbatim_iff formats).mp (List.map_inj_left.mp same batch member)
  · intro plain
    refine ⟨?_, serve_commandResults formats new⟩
    rw [bodies]
    exact List.map_congr_left fun batch member => (body_verbatim_iff formats).mpr (plain batch member)

def percents : List WebUIEvent :=
  [.addCommandResult "\x7b\"id\":0,\"output\":\"100%%\",\"result\":0\x7d".toList, .getResult]

theorem delivered_iff_percents :
    Delivered (fun text => printf (cString text)) percents ↔
      ∀ batch ∈ batches [] percents, ∀ json ∈ batch, Plain json :=
  delivered_iff (fun _ => rfl) percents

theorem percents_not_delivered :
    ¬ ∀ mgPrintfData, FormatsAsPrintf mgPrintfData → ∀ events, Delivered mgPrintfData events := by
  intro always
  have bodies := (always (fun text => printf (cString text)) (fun _ => rfl) percents).bodies
  revert bodies
  decide +kernel

end WebUIThread

end DistributedNinja.Master
