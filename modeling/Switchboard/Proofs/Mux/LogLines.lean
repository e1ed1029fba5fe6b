import Switchboard.Proofs.Mux.LogRecords

namespace Switchboard

open Mux

namespace LogLine

variable (kind : StreamKind) (l : LogLine)

def isOfHandshake : Bool :=
  l.target = "lspx::multiplexer" && (l.message.startsWith "Initializing " ||
    l.message.startsWith "Backend '" || l.message.startsWith "Handshake complete")

def isRequestDropped : Bool := l.target = "lspx::backend"

def isForwarding : Bool :=
  l.target = "lspx::forward" && l.message.startsWith ("Forwarding " ++ kind.text ++ " from '")

def isStop : Bool :=
  l.target = "lspx::forward" && (
    l.message.startsWith "Backend '" &&
      l.message.endsWith (" closed its " ++ kind.text ++ " stream") ||
    l.message.startsWith ("Merged " ++ kind.text ++ " stream dropped") ||
    l.message.startsWith ("Forwarder for " ++ kind.text ++ " from '"))

end LogLine

theorem endsWith_iff {s pattern : String} :
    s.endsWith pattern = true ↔ pattern.toList.reverse <+: s.toList.reverse := by
  rw [List.reverse_prefix, String.endsWith, String.Slice.endsWith_string_iff, String.copy_toSlice]

namespace Mux

namespace StreamKind

variable {kind k : StreamKind} {front back : List Char}

theorem prefix_iff : kind.text.toList ++ front <+: k.text.toList ++ back ↔
    k = kind ∧ front <+: back := by
  cases kind <;> cases k <;> simp [text]

theorem reverse_prefix_iff : kind.text.toList.reverse ++ front <+: k.text.toList.reverse ++ back ↔
    k = kind ∧ front <+: back := by
  cases kind <;> cases k <;> simp [text]

end StreamKind

namespace Log

variable (wording : Json → String) (log : Log) (kind : StreamKind)

theorem isOfHandshake_line : (log.line wording).isOfHandshake = log.isOfHandshake := by
  rw [Bool.eq_iff_iff]
  cases log <;> dsimp only [LogLine.isOfHandshake, line, target, message, headline] <;>
    simp [isOfHandshake, String.startsWith_string_iff]

theorem isRequestDropped_line : (log.line wording).isRequestDropped = log.isRequestDropped := by
  cases log <;> rfl

theorem isForwarding_line : (log.line wording).isForwarding kind = log.isForwarding kind := by
  rw [Bool.eq_iff_iff]
  cases log with
  | forwarding k name | sourceClosed k name | mergedDropped k name | forwarderCancelled k name =>
    dsimp only [LogLine.isForwarding, line, target, message, headline]
    simp only [decide_true, Bool.true_and, String.startsWith_string_iff, String.toList_append,
      List.append_assoc, isForwarding]
    simp [StreamKind.prefix_iff]
  | _ => rfl

theorem isStop_line : (log.line wording).isStop kind = log.isStop kind := by
  rw [Bool.eq_iff_iff]
  cases log with
  | forwarding k name | sourceClosed k name | mergedDropped k name | forwarderCancelled k name =>
    dsimp only [LogLine.isStop, line, target, message, headline]
    simp only [decide_true, Bool.true_and, Bool.or_eq_true, Bool.and_eq_true,
      String.startsWith_string_iff, endsWith_iff, String.toList_append, List.append_assoc,
      List.reverse_append, isStop]
    simp [StreamKind.prefix_iff, StreamKind.reverse_prefix_iff]
  | _ => rfl

/-- Records are told apart by their texts as well as by what they tell. -/
theorem filter_lines {p : LogLine → Bool} {q : Log → Bool}
    (same : ∀ log, p (log.line wording) = q log) (logs : List Log) :
    (logs.map (line wording)).filter p = (logs.filter q).map (line wording) := by
  rw [List.filter_map, show p ∘ line wording = q from funext same]

theorem message_eq : ∃ tail, log.message wording = log.headline ++ tail := by
  cases log with
  | malformedCapabilities backend raw => exact ⟨": " ++ wording raw, String.append_assoc ..⟩
  | _ => exact ⟨"", String.append_empty.symm⟩

theorem text_prefix : log.text.toList <+: (log.line wording).text.toList := by
  obtain ⟨tail, same⟩ := log.message_eq wording
  have whole : (log.line wording).text = log.text ++ tail := by
    simp only [line, text, LogLine.text, same, String.append_assoc]
  rw [whole, String.toList_append]
  exact List.prefix_append ..

end Log

/-- What is written to the log. -/
def lines (wording : Json → String) (es : List Effect) : List LogLine :=
  (logs es).map (Log.line wording)

theorem lines_append (wording : Json → String) (es es' : List Effect) :
    lines wording (es ++ es') = lines wording es ++ lines wording es' := by
  rw [lines, logs_append, List.map_append]
  rfl

end Mux

end Switchboard
