import Switchboard.Proofs.Record.Layouts

namespace Switchboard

open Json (Doc)
open Record

namespace Record

namespace Form

variable {F : Type} {Ty : F → Type} {form : Form F Ty}

/-- The second object has the entries of the first, in any order, and else only keys that are no
    fields. -/
def Widened (form : Form F Ty) : Json → Json → Prop
  | .obj entries, .obj all =>
    ∃ others, all.Perm (entries ++ others) ∧ ∀ e ∈ others, form.field? e.1 = none
  | _, _ => False

theorem gives_perm {f : F} {x : Ty f} {vs ws : List Json} (same : vs.Perm ws) :
    form.Gives f x vs ↔ form.Gives f x ws := by
  match vs with
  | [] => rw [List.nil_perm.mp same]
  | [v] => rw [List.singleton_perm.mp same]
  | _ :: _ :: _ =>
    have long := same.length_eq
    match ws with
    | [] | [_] => simp at long
    | _ :: _ :: _ => exact Iff.rfl

theorem fits_of_widened {v w : Json} (wider : form.Widened v w) : form.Fits v ∧ form.Fits w := by
  match v, w with
  | .obj _, .obj _ => exact ⟨trivial, trivial⟩

variable [DecidableEq F]

theorem values_of_widened {v w : Json} (wider : form.Widened v w) (f : F) :
    (form.values f w).Perm (form.values f v) := by
  match v, w with
  | .obj entries, .obj all =>
    obtain ⟨others, same, unknown⟩ := wider
    have beyond : Assoc.under (form.key f) others = [] := by
      apply Assoc.under_eq_nil
      intro member
      obtain ⟨e, member, same⟩ := List.mem_map.mp member
      exact key_ne_of_field? (unknown e member) f same
    have kept := (same.filter fun e => e.1 == form.key f).map Prod.snd
    rw [List.filter_append, List.map_append] at kept
    rw [← List.append_nil (form.values f (.obj entries)), ← beyond]
    exact kept

end Form

variable {α F : Type} [DecidableEq F] {Ty : F → Type} {read : Origin → Doc → Except Problem α}
  {form : Origin → Form F Ty} {fields : α → (f : F) → Ty f}

theorem ReadsBy.ofJson_widened (reads : ReadsBy read form fields) {v w : Json}
    (wider : (form .value).Widened v w) (a : α) :
    ofJson read w = .ok a ↔ ofJson read v = .ok a := by
  obtain ⟨narrow, wide⟩ := Form.fits_of_widened wider
  rw [reads.ofJson_eq_ok_iff, reads.ofJson_eq_ok_iff]
  simp only [narrow, wide, true_and]
  exact forall_congr' fun f => Form.gives_perm (Form.values_of_widened wider f)

/-- What is written of a record reads back, also with other keys in it, as what is `kept` of the
    record. What has been read from any value is kept whole. -/
structure RoundTrips (read : Origin → Doc → Except Problem α) (toJson : α → Json)
    (widened : α → Json → Prop) (kept : α → α) : Prop where
  decode_encode : ∀ a, ofJson read (toJson a) = .ok (kept a)
  decode_widened : ∀ a w, widened a w → ofJson read w = .ok (kept a)
  decode_again : ∀ v a, ofJson read v = .ok a → ofJson read (toJson a) = .ok a

theorem ReadsBy.roundTrips (reads : ReadsBy read form fields) {toJson : α → Json} {kept : α → α}
    (decode_encode : ∀ a, ofJson read (toJson a) = .ok (kept a))
    (whole : ∀ v a, ofJson read v = .ok a → kept a = a) :
    RoundTrips read toJson (fun a => (form .value).Widened (toJson a)) kept where
  decode_encode := decode_encode
  decode_widened a _ wider := (reads.ofJson_widened wider _).mpr (decode_encode a)
  decode_again v a decoded := by rw [decode_encode, whole v a decoded]

end Record

theorem Notification.ofJson_toJson (n : Notification) : ofJson read n.toJson = .ok n := by
  rw [readsBy.ofJson_eq_ok_iff]
  refine ⟨trivial, fun f => ?_⟩
  cases f with
  | method => exact string_eq_ok_iff.mpr rfl
  | params => exact any_value n.params

theorem ServerRequest.ofJson_toJson (r : ServerRequest) : ofJson read r.toJson = .ok r := by
  rw [readsBy.ofJson_eq_ok_iff]
  refine ⟨trivial, fun f => ?_⟩
  cases f with
  | id => exact RequestId.read_eq_ok_iff.mpr rfl
  | method => exact string_eq_ok_iff.mpr rfl
  | params => exact any_value r.params

namespace RpcError

def withoutNull (e : RpcError) : RpcError := { e with data := e.data.bind present }

theorem ofJson_toJson (e : RpcError) : ofJson read e.toJson = .ok e.withoutNull := by
  rw [readsBy.ofJson_eq_ok_iff]
  obtain ⟨code, message, data⟩ := e
  refine ⟨trivial, fun f => ?_⟩
  cases f with
  | code => cases data <;> exact code_eq_ok_iff.mpr rfl
  | message => cases data <;> exact string_eq_ok_iff.mpr rfl
  | data => cases data with
    | none => exact rfl
    | some data => exact optional_of_any (any_value data)

theorem withoutNull_of_read {v : Json} {e : RpcError} (decoded : ofJson read v = .ok e) :
    e.withoutNull = e := by
  obtain ⟨-, gives⟩ := readsBy.ofJson_eq_ok_iff.mp decoded
  have given := gives .data
  have idle : e.data.bind present = e.data := by
    match values : (form .value).values .data v with
    | [] =>
      rw [values] at given
      have absent : none = e.data := Option.some.inj given
      rw [← absent]
      rfl
    | [w] =>
      rw [values] at given
      have read : present w = e.data :=
        Except.ok.inj ((optional_of_any (any_value w)).symm.trans given)
      rw [← read, present_bind_present]
    | _ :: _ :: _ =>
      rw [values] at given
      exact given.elim
  rw [withoutNull, idle]

end RpcError

theorem ServerInfo.ofJson_toJson (info : ServerInfo) : ofJson read info.toJson = .ok info := by
  rw [readsBy.ofJson_eq_ok_iff]
  refine ⟨trivial, fun f => ?_⟩
  cases f with
  | name => exact string_eq_ok_iff.mpr rfl
  | version => exact string_eq_ok_iff.mpr rfl

namespace Settings

theorem ofJson_of_serverInfo {s : Settings} {info : Json}
    (decoded : ofJson ServerInfo.read info = .ok s.serverInfo) :
    ofJson read (.obj [("server_info", info)]) = .ok s := by
  rw [readsBy.ofJson_eq_ok_iff]
  refine ⟨trivial, fun f => ?_⟩
  cases f
  exact decoded

/-- Settings that are written with other keys, beside the identity and inside of it. -/
def Widened (s : Settings) (w : Json) : Prop :=
  ∃ info, ServerInfo.form.Widened s.serverInfo.toJson info ∧
    (form .value).Widened (.obj [("server_info", info)]) w

theorem roundTrips : RoundTrips read toJson Widened id where
  decode_encode s := ofJson_of_serverInfo s.serverInfo.ofJson_toJson
  decode_widened s w := by
    rintro ⟨info, inside, beside⟩
    have decoded : ofJson ServerInfo.read info = .ok s.serverInfo :=
      (ServerInfo.readsBy.ofJson_widened inside _).mpr s.serverInfo.ofJson_toJson
    exact (readsBy.ofJson_widened beside s).mpr (ofJson_of_serverInfo decoded)
  decode_again _ s _ := ofJson_of_serverInfo s.serverInfo.ofJson_toJson

end Settings

/-- Every record reads back from what it is written as, an error without data that are `null`; and
    an error that is known by the class of its code is written like the error itself. -/
theorem records_round_trip :
    RoundTrips Notification.read Notification.toJson
      (fun n => (Notification.form .value).Widened n.toJson) id ∧
    RoundTrips ServerRequest.read ServerRequest.toJson
      (fun r => (ServerRequest.form .value).Widened r.toJson) id ∧
    RoundTrips Settings.read Settings.toJson Settings.Widened id ∧
    RoundTrips RpcError.read RpcError.toJson
      (fun e => (RpcError.form .value).Widened e.toJson) RpcError.withoutNull ∧
    ∀ e, (ClassifiedError.ofRpcError e).toJson = e.toJson := by
  refine ⟨Notification.readsBy.roundTrips Notification.ofJson_toJson fun _ _ _ => rfl,
    ServerRequest.readsBy.roundTrips ServerRequest.ofJson_toJson fun _ _ _ => rfl,
    Settings.roundTrips,
    RpcError.readsBy.roundTrips RpcError.ofJson_toJson fun _ _ => RpcError.withoutNull_of_read, ?_⟩
  intro e
  rw [ClassifiedError.toJson, ClassifiedError.ofRpcError, ErrorClass.code_ofCode, RpcError.toJson]

end Switchboard
