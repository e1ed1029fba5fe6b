import Switchboard.Proofs.Record.Fields
import Switchboard.Settings.Basic
import Switchboard.Wire.Message
import Switchboard.Wire.RpcError

namespace Switchboard

open Json (Doc)
open Record

namespace Record

theorem found_ofJson (v : Json) : ∃ what, found (Doc.ofJson v) = .ok what := by
  cases v with
  | num n => cases n <;> exact ⟨_, rfl⟩
  | _ => exact ⟨_, rfl⟩

theorem wrongType_ne_ok {α : Type} (v : Json) (expected : Expected) (a : α) :
    wrongType (Doc.ofJson v) expected ≠ .ok a := by
  obtain ⟨what, found⟩ := found_ofJson v
  simp [wrongType, found, bind, Except.bind, throw, throwThe, MonadExceptOf.throw]

theorem string_eq_ok_iff {v : Json} {s : String} :
    Record.string (Doc.ofJson v) = .ok s ↔ v = .str s := by
  cases v with
  | str t => simp [Doc.ofJson, Record.string]
  | _ =>
    simp only [reduceCtorEq, iff_false]
    exact wrongType_ne_ok _ .string s

theorem isInt32_toInt (c : Int32) : Width.isInt32 c.toInt = true := by
  have low := c.le_toInt
  have high := c.toInt_lt
  simp only [Width.isInt32, Bool.and_eq_true, decide_eq_true_eq]
  omega

theorem isInt64_toInt (c : Int64) : Width.isInt64 c.toInt = true := by
  have low := c.le_toInt
  have high := c.toInt_lt
  simp only [Width.isInt64, Bool.and_eq_true, decide_eq_true_eq]
  omega

theorem ofInt32_eq_iff {n : Int} (fits : Width.isInt32 n = true) {c : Int32} :
    Int32.ofInt n = c ↔ n = c.toInt := by
  simp only [Width.isInt32, Bool.and_eq_true, decide_eq_true_eq] at fits
  constructor
  · rintro rfl
    rw [Int32.toInt_ofInt_of_le (by omega) (by omega)]
  · rintro rfl
    exact c.ofInt_toInt

theorem ofInt64_eq_iff {n : Int} (fits : Width.isInt64 n = true) {c : Int64} :
    Int64.ofInt n = c ↔ n = c.toInt := by
  simp only [Width.isInt64, Bool.and_eq_true, decide_eq_true_eq] at fits
  constructor
  · rintro rfl
    rw [Int64.toInt_ofInt_of_le (by omega) (by omega)]
  · rintro rfl
    exact c.ofInt_toInt

theorem code_eq_ok_iff {v : Json} {c : Int32} :
    Record.code (Doc.ofJson v) = .ok c ↔ v = .int c.toInt := by
  match v with
  | .num (.int n) =>
    rw [Doc.ofJson, Record.code, Json.num.injEq, Json.Number.int.injEq]
    by_cases fits : Width.isInt32 n
    · rw [if_pos fits, Except.ok.injEq, ofInt32_eq_iff fits]
    · simp only [fits, Bool.false_eq_true, if_false, reduceCtorEq, false_iff]
      rintro rfl
      exact fits (isInt32_toInt c)
  | .num (.float x) =>
    simp only [Json.num.injEq, reduceCtorEq, iff_false]
    exact wrongType_ne_ok (.num (.float x)) .code c
  | .null | .bool _ | .str _ | .arr _ | .obj _ =>
    simp only [reduceCtorEq, iff_false]
    exact wrongType_ne_ok _ .code c

theorem any_text (v : Json) : any .text (Doc.ofJson v) = .ok v.sortKeys := by
  simp [any, Doc.read_ofJson, ofFault, bind, Except.bind, pure, Except.pure]

theorem any_value (v : Json) : any .value (Doc.ofJson v) = .ok v := by
  simp [any, Doc.read_ofJson, ofFault, bind, Except.bind, pure, Except.pure]

def present : Json → Option Json
  | .null => none
  | v => some v

theorem present_bind_present (v : Json) : (present v).bind present = present v := by
  cases v <;> rfl

theorem optional_of_any {origin : Origin} {v w : Json} (read : any origin (Doc.ofJson v) = .ok w) :
    optional origin (Doc.ofJson v) = .ok (present w) := by
  cases w <;> simp [optional, read, present, bind, Except.bind, pure, Except.pure]

section Layouts

variable {α F : Type} [DecidableEq F] {Ty : F → Type}

/-- A reading that takes the fields of its form and nothing else. -/
structure ReadsBy (read : Origin → Doc → Except Problem α) (form : Origin → Form F Ty)
    (fields : α → (f : F) → Ty f) : Prop where
  distinct : ∀ origin, (form origin).Distinct
  eq_ok_iff : ∀ origin doc a,
    read origin doc = .ok a ↔ (form origin).readRecord origin doc = .ok (fields a)

theorem ReadsBy.ofJson_eq_ok_iff {read : Origin → Doc → Except Problem α}
    {form : Origin → Form F Ty} {fields : α → (f : F) → Ty f} (reads : ReadsBy read form fields)
    {v : Json} {a : α} :
    ofJson read v = .ok a ↔
      (form .value).Fits v ∧
        ∀ f, (form .value).Gives f (fields a f) ((form .value).values f v) := by
  rw [ofJson, reads.eq_ok_iff, Form.readRecord_eq_ok_iff (reads.distinct _)]

theorem readRecord_bind_eq_ok_iff {form : Form F Ty} {make : ((f : F) → Ty f) → α}
    {fields : α → (f : F) → Ty f} (make_fields : ∀ a, make (fields a) = a)
    (fields_make : ∀ r, fields (make r) = r) (origin : Origin) (doc : Doc) (a : α) :
    (do let r ← form.readRecord origin doc; return make r) = .ok a ↔
      form.readRecord origin doc = .ok (fields a) := by
  cases read : form.readRecord origin doc with
  | error p => simp [bind, Except.bind]
  | ok r =>
    simp only [bind, Except.bind, pure, Except.pure, Except.ok.injEq]
    constructor
    · intro same
      rw [← same, fields_make]
    · intro same
      rw [same, make_fields]

end Layouts

end Record

theorem RequestId.read_eq_ok_iff {v : Json} {id : RequestId} :
    RequestId.read (Doc.ofJson v) = .ok id ↔ v = id.toJson := by
  rw [RequestId.read, Doc.read_ofJson]
  match v with
  | .num (.int n) =>
    by_cases fits : Width.isInt64 n
    · cases id <;> simp [ofFault, bind, Except.bind, pure, Except.pure, fits, toJson,
        ofInt64_eq_iff fits]
    · cases id with
      | number c =>
        have other : n ≠ c.toInt := by
          rintro rfl
          exact fits (isInt64_toInt c)
        simp [ofFault, bind, Except.bind, throw, throwThe, MonadExceptOf.throw, fits, toJson, other]
      | text _ | null =>
        simp [ofFault, bind, Except.bind, throw, throwThe, MonadExceptOf.throw, fits, toJson]
  | .str s => cases id <;> simp [ofFault, bind, Except.bind, pure, Except.pure, toJson]
  | .null => cases id <;> simp [ofFault, bind, Except.bind, pure, Except.pure, toJson]
  | .num (.float _) | .bool _ | .arr _ | .obj _ =>
    cases id <;> simp [ofFault, bind, Except.bind, throw, throwThe, MonadExceptOf.throw, toJson]

def Notification.fields (n : Notification) : (f : Notification.Field) → f.Ty
  | .method => n.method
  | .params => n.params

theorem Notification.readsBy :
    ReadsBy Notification.read Notification.form Notification.fields where
  distinct _ := ⟨by rintro ⟨⟩ ⟨⟩ <;> simp [form], by simp [form]⟩
  eq_ok_iff origin doc n := by
    unfold read
    refine readRecord_bind_eq_ok_iff (fun _ => rfl) (fun r => funext fun f => ?_) origin doc n
    cases f <;> rfl

def ServerRequest.fields (r : ServerRequest) : (f : ServerRequest.Field) → f.Ty
  | .id => r.id
  | .method => r.method
  | .params => r.params

theorem ServerRequest.readsBy :
    ReadsBy ServerRequest.read ServerRequest.form ServerRequest.fields where
  distinct _ := ⟨by rintro ⟨⟩ ⟨⟩ <;> simp [form], by simp [form]⟩
  eq_ok_iff origin doc r := by
    unfold read
    refine readRecord_bind_eq_ok_iff (fun _ => rfl) (fun r => funext fun f => ?_) origin doc r
    cases f <;> rfl

def RpcError.fields (e : RpcError) : (f : RpcError.Field) → f.Ty
  | .code => e.code
  | .message => e.message
  | .data => e.data

theorem RpcError.readsBy : ReadsBy RpcError.read RpcError.form RpcError.fields where
  distinct _ := ⟨by rintro ⟨⟩ ⟨⟩ <;> simp [form], by simp [form]⟩
  eq_ok_iff origin doc e := by
    unfold read
    refine readRecord_bind_eq_ok_iff (fun _ => rfl) (fun r => funext fun f => ?_) origin doc e
    cases f <;> rfl

def ServerInfo.fields (info : ServerInfo) : (f : ServerInfo.Field) → f.Ty
  | .name => info.name
  | .version => info.version

theorem ServerInfo.readsBy :
    ReadsBy ServerInfo.read (fun _ => ServerInfo.form) ServerInfo.fields where
  distinct _ := ⟨by rintro ⟨⟩ ⟨⟩ <;> simp [form], by simp [form]⟩
  eq_ok_iff origin doc info := by
    unfold read
    refine readRecord_bind_eq_ok_iff (fun _ => rfl) (fun r => funext fun f => ?_) origin doc info
    cases f <;> rfl

def Settings.fields (s : Settings) : (f : Settings.Field) → f.Ty
  | .serverInfo => s.serverInfo

theorem Settings.readsBy : ReadsBy Settings.read Settings.form Settings.fields where
  distinct _ := ⟨by rintro ⟨⟩ ⟨⟩; simp, by simp [form]⟩
  eq_ok_iff origin doc s := by
    unfold read
    refine readRecord_bind_eq_ok_iff (fun _ => rfl) (fun r => funext fun f => ?_) origin doc s
    cases f
    rfl

end Switchboard
