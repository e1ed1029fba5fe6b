import Mathlib
import Switchboard.Proofs.Record.Layouts

namespace Switchboard

open Json (Doc Document Fault)
open Record

namespace Json

/-- The value that a text spells with its entries as the text has them: in its order, and repeated
    keys each time. -/
def inTextOrder (text : String) : Except Fault Json := (Document.ofText text).take id Doc.read

theorem Document.take_eq_ok_iff {ε α : Type} {d : Document} {fault : Fault → ε}
    {f : Doc → Except ε α} {a : α} :
    d.take fault f = .ok a ↔ f d.root = .ok a ∧ d.hasMore = false := by
  rw [Document.take]
  cases result : f d.root <;> cases more : d.hasMore <;>
    simp [bind, Except.bind, throw, throwThe, MonadExceptOf.throw, pure, Except.pure]

theorem inTextOrder_eq_ok_iff {text : String} {u : Json} :
    inTextOrder text = .ok u ↔
      (Document.ofText text).root = Doc.ofJson u ∧ (Document.ofText text).hasMore = false := by
  rw [inTextOrder, Document.take_eq_ok_iff]
  refine and_congr_left fun _ => ⟨Doc.eq_ofJson_of_read, fun same => ?_⟩
  rw [same, Doc.read_ofJson]

theorem ofText_eq_ok_iff {text : String} {v : Json} :
    ofText text = .ok v ↔ ∃ u, inTextOrder text = .ok u ∧ u.sortKeys = v := by
  rw [ofText, Document.take_eq_ok_iff]
  simp only [inTextOrder, Document.take_eq_ok_iff]
  cases read : (Document.ofText text).root.read with
  | error f => simp [Except.map]
  | ok u => simp [Except.map, and_comm]

theorem sortKeysOfItems_eq_map (items : List Json) :
    sortKeysOfItems items = items.map sortKeys := by
  induction items with
  | nil => rfl
  | cons v rest ih => rw [sortKeysOfItems, ih, List.map_cons]

theorem under_sortKeysOfEntries (key : String) (entries : List (String × Json)) :
    Assoc.under key (sortKeysOfEntries entries) = (Assoc.under key entries).map sortKeys := by
  induction entries with
  | nil => rfl
  | cons e rest ih =>
    obtain ⟨k, v⟩ := e
    rw [sortKeysOfEntries]
    by_cases same : k = key
    · subst same
      rw [Assoc.under_cons_self, Assoc.under_cons_self, ih, List.map_cons]
    · rw [Assoc.under_cons_other _ _ same, Assoc.under_cons_other _ _ same, ih]

theorem under_sortKeys (key : String) (entries : List (String × Json)) :
    Assoc.under key (Assoc.ofList (sortKeysOfEntries entries)) =
      ((Assoc.under key entries).map sortKeys).getLast?.toList := by
  rw [Assoc.under_ofList, under_sortKeysOfEntries]

theorem get?_sortKeys (key : String) (entries : List (String × Json)) :
    (Json.obj entries).sortKeys.get? key = (Assoc.under key entries).getLast?.map sortKeys := by
  rw [sortKeys, object, get?, Assoc.lookup_eq_head?, under_sortKeys, List.getLast?_map]
  cases (Assoc.under key entries).getLast? <;> rfl

theorem sortKeys_eq_str_iff {v : Json} {s : String} : v.sortKeys = .str s ↔ v = .str s := by
  cases v <;> simp [sortKeys, object]

theorem sortKeys_eq_num_iff {v : Json} {n : Number} : v.sortKeys = .num n ↔ v = .num n := by
  cases v <;> simp [sortKeys, object]

theorem sortKeys_eq_null_iff {v : Json} : v.sortKeys = .null ↔ v = .null := by
  cases v <;> simp [sortKeys, object]

end Json

namespace Record

theorem ofText_eq_ok_iff {α : Type} {read : Origin → Doc → Except Problem α} {text : String}
    {u : Json} (spelled : Json.inTextOrder text = .ok u) {a : α} :
    ofText read text = .ok a ↔ read .text (Doc.ofJson u) = .ok a := by
  obtain ⟨root, whole⟩ := Json.inTextOrder_eq_ok_iff.mp spelled
  rw [ofText, Document.take_eq_ok_iff, root, whole]
  simp

namespace Form

variable {F : Type} {Ty : F → Type}

theorem fits_sortKeys (form : Form F Ty) (v : Json) : form.Fits v.sortKeys ↔ form.Fits v := by
  cases v <;> simp [Json.sortKeys, Json.object, Json.sortKeysOfItems_eq_map, Fits]

theorem gives_congr {form : Form F Ty} {f : F} {x : Ty f} {same : Json → Json → Prop}
    (read_congr : ∀ v w, same v w →
      (form.read f (Doc.ofJson v) = .ok x ↔ form.read f (Doc.ofJson w) = .ok x))
    {vs ws : List Json} (alike : List.Forall₂ same vs ws) :
    form.Gives f x vs ↔ form.Gives f x ws := by
  cases alike with
  | nil => exact Iff.rfl
  | cons head tail =>
    cases tail with
    | nil => exact read_congr _ _ head
    | cons _ _ => exact Iff.rfl

/-- The two ways to read a form's fields: from texts and from values. They take the same for a field
    unless it is not `clean` in the text. -/
structure Agrees (form : Origin → Form F Ty) (clean : F → Json → Prop) : Prop where
  key : (form .value).key = (form .text).key
  fields : (form .value).fields = (form .text).fields
  fallback : (form .value).fallback = (form .text).fallback
  read : ∀ f v x, (form .text).read f (Doc.ofJson v) = .ok x ↔
    (form .value).read f (Doc.ofJson v.sortKeys) = .ok x ∧ clean f v

theorem Agrees.fits {form : Origin → Form F Ty} {clean : F → Json → Prop}
    (agrees : Agrees form clean) (v : Json) :
    (form .value).Fits v ↔ (form .text).Fits v := by
  cases v <;> simp [Fits, agrees.fields]

theorem Agrees.gives {form : Origin → Form F Ty} {clean : F → Json → Prop}
    (agrees : Agrees form clean) (f : F) (x : Ty f) (vs : List Json) :
    (form .text).Gives f x vs ↔
      (form .value).Gives f x (vs.map Json.sortKeys).getLast?.toList ∧ vs.length < 2 ∧
        ∀ v ∈ vs, clean f v := by
  match vs with
  | [] => simp [Gives, agrees.fallback]
  | [v] => simp [Gives, agrees.read]
  | _ :: _ :: _ =>
    simp only [Gives, List.length_cons, false_iff, not_and]
    intro _ short
    omega

variable [DecidableEq F]

theorem values_sortKeys (form : Form F Ty) (f : F) (v : Json) :
    form.values f v.sortKeys = ((form.values f v).map Json.sortKeys).getLast?.toList := by
  cases v with
  | obj entries => exact Json.under_sortKeys _ entries
  | arr items =>
    simp only [Json.sortKeys, Json.sortKeysOfItems_eq_map, values, List.getElem?_map]
    cases items[form.fields.idxOf f]? <;> rfl
  | _ => rfl

/-- An object that has more than one entry for a field. -/
def Repeats (form : Form F Ty) (v : Json) : Prop := ∃ f, 2 ≤ (form.values f v).length

/-- Two values that give each field the same, whatever other keys they have. -/
def Alike (form : Form F Ty) (same : F → Json → Json → Prop) (v w : Json) : Prop :=
  (form.Fits v ↔ form.Fits w) ∧ ∀ f, List.Forall₂ (same f) (form.values f v) (form.values f w)

variable {form : Origin → Form F Ty} {clean : F → Json → Prop}

theorem Agrees.values (agrees : Agrees form clean) (f : F) (v : Json) :
    (form .value).values f v = (form .text).values f v := by
  cases v <;> simp [Form.values, agrees.key, agrees.fields]

end Form

variable {α F : Type} [DecidableEq F] {Ty : F → Type} {read : Origin → Doc → Except Problem α}
  {form : Origin → Form F Ty} {fields : α → (f : F) → Ty f} {clean : F → Json → Prop}

theorem ReadsBy.text_eq_ok_iff (reads : ReadsBy read form fields) (agrees : Form.Agrees form clean)
    (v : Json) (a : α) :
    read .text (Doc.ofJson v) = .ok a ↔ ofJson read v.sortKeys = .ok a ∧
      ¬ (form .text).Repeats v ∧ ∀ f, ∀ w ∈ (form .text).values f v, clean f w := by
  have each (f : F) := agrees.gives f (fields a f) ((form .text).values f v)
  rw [reads.eq_ok_iff, Form.readRecord_eq_ok_iff (reads.distinct _), reads.ofJson_eq_ok_iff,
    Form.fits_sortKeys, agrees.fits, and_assoc]
  apply and_congr_right
  intro _
  simp only [Form.values_sortKeys, agrees.values, Form.Repeats, not_exists, Nat.not_le, each]
  constructor
  · intro all
    exact ⟨fun f => (all f).1, fun f => (all f).2.1, fun f => (all f).2.2⟩
  · rintro ⟨gives, once, clear⟩ f
    exact ⟨gives f, once f, clear f⟩

theorem ReadsBy.ofJson_congr (reads : ReadsBy read form fields) {same : F → Json → Json → Prop}
    (read_congr : ∀ f v w (x : Ty f), same f v w →
      ((form .value).read f (Doc.ofJson v) = .ok x ↔ (form .value).read f (Doc.ofJson w) = .ok x))
    {v w : Json} (alike : (form .value).Alike same v w) (a : α) :
    ofJson read v = .ok a ↔ ofJson read w = .ok a := by
  rw [reads.ofJson_eq_ok_iff, reads.ofJson_eq_ok_iff]
  exact and_congr alike.1 <| forall_congr' fun f =>
    Form.gives_congr (fun v w same => read_congr f v w _ same) (alike.2 f)

/-- How a text and the value that it spells are decoded. -/
structure TextAgrees (read : Origin → Doc → Except Problem α) (repeats : Json → Prop)
    (alike : Json → Json → Prop) : Prop where
  decodes : ∀ text v, Json.ofText text = .ok v → ∃ u, Json.inTextOrder text = .ok u ∧
    u.sortKeys = v ∧ (∀ a, ofText read text = .ok a ↔ ofJson read v = .ok a ∧ ¬ repeats u) ∧
    (repeats u → ∃ problem, ofText read text = .error problem)
  -- What is repeated may go unnoticed in the value.
  overlooks : ∃ text u a, Json.inTextOrder text = .ok u ∧ repeats u ∧
    ofJson read u.sortKeys = .ok a
  spelling : ∀ text text' u u', Json.inTextOrder text = .ok u → Json.inTextOrder text' = .ok u' →
    ¬ repeats u → ¬ repeats u' → alike u.sortKeys u'.sortKeys →
    ∀ a, ofText read text = .ok a ↔ ofText read text' = .ok a

theorem TextAgrees.of_text_eq_ok_iff {repeats : Json → Prop} {alike : Json → Json → Prop}
    (text_eq_ok_iff : ∀ v a, read .text (Doc.ofJson v) = .ok a ↔
      ofJson read v.sortKeys = .ok a ∧ ¬ repeats v)
    (ofJson_congr : ∀ v w, alike v w → ∀ a, ofJson read v = .ok a ↔ ofJson read w = .ok a)
    (overlooks : ∃ text u a, Json.inTextOrder text = .ok u ∧ repeats u ∧
      ofJson read u.sortKeys = .ok a) :
    TextAgrees read repeats alike where
  decodes text v parses := by
    obtain ⟨u, spelled, rfl⟩ := Json.ofText_eq_ok_iff.mp parses
    have same (a : α) := (ofText_eq_ok_iff spelled).trans (text_eq_ok_iff u a)
    refine ⟨u, spelled, rfl, same, fun repeated => ?_⟩
    cases decoded : ofText read text with
    | error problem => exact ⟨problem, rfl⟩
    | ok a => exact absurd repeated ((same a).mp decoded).2
  overlooks := overlooks
  spelling text text' u u' spelled spelled' once once' alike a := by
    rw [ofText_eq_ok_iff spelled, ofText_eq_ok_iff spelled', text_eq_ok_iff, text_eq_ok_iff,
      ofJson_congr _ _ alike]
    simp only [once, once']

theorem ReadsBy.textAgrees (reads : ReadsBy read form fields)
    (agrees : Form.Agrees form fun _ _ => True)
    (overlooks : ∃ text u a, Json.inTextOrder text = .ok u ∧ (form .text).Repeats u ∧
      ofJson read u.sortKeys = .ok a) :
    TextAgrees read (form .text).Repeats ((form .value).Alike fun _ => Eq) := by
  refine .of_text_eq_ok_iff (fun v a => ?_) (fun v w alike => ?_) overlooks
  · simp [reads.text_eq_ok_iff agrees]
  · refine reads.ofJson_congr (fun f v w x same => ?_) alike
    rw [same]

end Record

theorem RpcError.agrees : Form.Agrees form fun _ _ => True where
  key := rfl
  fields := rfl
  fallback := rfl
  read f v x := by
    cases f with
    | code => simp [form, code_eq_ok_iff, Json.sortKeys_eq_num_iff]
    | message => simp [form, string_eq_ok_iff, Json.sortKeys_eq_str_iff]
    | data => simp [form, optional_of_any (any_text v), optional_of_any (any_value v.sortKeys)]

theorem Notification.agrees : Form.Agrees form fun _ _ => True where
  key := rfl
  fields := rfl
  fallback := rfl
  read f v x := by
    cases f with
    | method => simp [form, string_eq_ok_iff, Json.sortKeys_eq_str_iff]
    | params => simp [form, any_text, any_value]

theorem RequestId.sortKeys_eq_toJson_iff {v : Json} {id : RequestId} :
    v.sortKeys = id.toJson ↔ v = id.toJson := by
  cases id with
  | number n => exact Json.sortKeys_eq_num_iff
  | text s => exact Json.sortKeys_eq_str_iff
  | null => exact Json.sortKeys_eq_null_iff

theorem ServerRequest.agrees : Form.Agrees form fun _ _ => True where
  key := rfl
  fields := rfl
  fallback := rfl
  read f v x := by
    cases f with
    | id => simp [form, RequestId.read_eq_ok_iff, RequestId.sortKeys_eq_toJson_iff]
    | method => simp [form, string_eq_ok_iff, Json.sortKeys_eq_str_iff]
    | params => simp [form, any_text, any_value]

theorem ServerInfo.agrees : Form.Agrees (fun _ => form) fun _ _ => True where
  key := rfl
  fields := rfl
  fallback := rfl
  read f v x := by
    cases f <;> simp [form, string_eq_ok_iff, Json.sortKeys_eq_str_iff]

namespace Settings

/-- A field is repeated, of the settings or of the identity in them. -/
def Repeats (v : Json) : Prop :=
  (form .text).Repeats v ∨ ∃ info ∈ (form .text).values .serverInfo v, ServerInfo.form.Repeats info

def Alike : Json → Json → Prop := (form .value).Alike fun _ => ServerInfo.form.Alike fun _ => Eq

theorem agrees : Form.Agrees form fun _ info => ¬ ServerInfo.form.Repeats info where
  key := rfl
  fields := rfl
  fallback := rfl
  read f v x := by
    cases f
    refine (ServerInfo.readsBy.text_eq_ok_iff ServerInfo.agrees v x).trans ?_
    simp [form, ofJson]

theorem textAgrees
    (overlooks : ∃ text u s, Json.inTextOrder text = .ok u ∧ Repeats u ∧
      ofJson read u.sortKeys = .ok s) : TextAgrees read Repeats Alike := by
  refine .of_text_eq_ok_iff (fun v s => ?_) (fun v w alike => ?_) overlooks
  · rw [readsBy.text_eq_ok_iff agrees, Repeats, not_or]
    refine and_congr_right fun _ => and_congr_right fun _ => ?_
    constructor
    · rintro clean ⟨info, member, repeated⟩
      exact clean .serverInfo info member repeated
    · intro clean f info member repeated
      cases f
      exact clean ⟨info, member, repeated⟩
  · refine readsBy.ofJson_congr (fun f v w info same => ?_) alike
    cases f
    refine ServerInfo.readsBy.ofJson_congr (fun f v w x equal => ?_) same info
    rw [equal]

end Settings

/-- Each record is decoded from a text just as from the value that the text spells, except that the
    text may not repeat a field. The value keeps the last of what is repeated. -/
theorem texts_decode_like_values :
    TextAgrees RpcError.read (RpcError.form .text).Repeats
      ((RpcError.form .value).Alike fun _ => Eq) ∧
    TextAgrees Notification.read (Notification.form .text).Repeats
      ((Notification.form .value).Alike fun _ => Eq) ∧
    TextAgrees ServerRequest.read (ServerRequest.form .text).Repeats
      ((ServerRequest.form .value).Alike fun _ => Eq) ∧
    TextAgrees Settings.read Settings.Repeats Settings.Alike ∧
    ∀ key entries, (Json.obj entries).sortKeys.get? key =
      (Assoc.under key entries).getLast?.map Json.sortKeys := by
  refine ⟨RpcError.readsBy.textAgrees RpcError.agrees ?_,
    Notification.readsBy.textAgrees Notification.agrees ?_,
    ServerRequest.readsBy.textAgrees ServerRequest.agrees ?_, Settings.textAgrees ?_,
    Json.get?_sortKeys⟩
  · refine ⟨"\x7b\"code\":\"x\",\"code\":1,\"message\":\"m\"\x7d",
      .obj [("code", .str "x"), ("code", .int 1), ("message", .str "m")],
      ⟨1, "m", none⟩, by cbv, ⟨.code, by decide⟩, ?_⟩
    rfl
  · refine ⟨"\x7b\"method\":\"a\",\"method\":\"b\"\x7d",
      .obj [("method", .str "a"), ("method", .str "b")], ⟨"b", .null⟩, by cbv,
      ⟨.method, by decide⟩, ?_⟩
    rfl
  · refine ⟨"\x7b\"id\":1,\"method\":\"m\",\"id\":2\x7d",
      .obj [("id", .int 1), ("method", .str "m"), ("id", .int 2)],
      ⟨.number 2, "m", .null⟩, by cbv, ⟨.id, by decide⟩, ?_⟩
    rfl
  · refine ⟨"\x7b\"server_info\":\x7b\"name\":1,\"name\":\"a\"\x7d\x7d",
      .obj [("server_info", .obj [("name", .int 1), ("name", .str "a")])],
      ⟨⟨"a", "0.1.0"⟩⟩, by cbv, .inr ⟨_, List.mem_singleton_self _, .name, by decide⟩, ?_⟩
    rfl

end Switchboard
