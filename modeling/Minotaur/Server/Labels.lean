import Minotaur.Connection.Record
import Std.Data.String.ToNat

/-!
The labels of the endpoints a server is bound to. Validation compares the
explicit names among themselves. An endpoint without a name is labelled by its
protocol and port, which another address may share and an explicit name may
spell, and nothing compares those.
-/

namespace Minotaur

open Net

/-! ### Binding -/

/-- The endpoints with the addresses their listeners are bound to. -/
structure BoundServer where
  endpoints : List EndpointConfig
  management : Option SocketAddr

namespace BoundServer

/-- `listen` is what binding and `local_addr` return to the n-th call, `none`
where the address is not available. -/
def bindEndpoints (listen : Nat → SocketAddr → Option SocketAddr) :
    Nat → List EndpointConfig → Except String (List EndpointConfig)
  | _, [] => .ok []
  | index, endpoint :: rest =>
      match listen index endpoint.bind with
      | none => .error s!"cannot bind {endpoint.protocol.asStr} endpoint {endpoint.bind.show}"
      | some bind => do
          let bound ← bindEndpoints listen (index + 1) rest
          pure ({ endpoint with bind := bind } :: bound)

/-- `BoundServer::bind`. -/
def bind (listen : Nat → SocketAddr → Option SocketAddr) (config : Config) :
    Except String BoundServer := do
  config.validate
  let endpoints ← bindEndpoints listen 0 config.endpoints
  if config.metrics.enabled then
    match listen config.endpoints.length config.metrics.bind with
    | none => .error s!"cannot bind management endpoint {config.metrics.bind.show}"
    | some bind => pure ⟨endpoints, some bind⟩
  else pure ⟨endpoints, none⟩

variable {listen : Nat → SocketAddr → Option SocketAddr}

/-- Binding changes addresses and nothing else. -/
theorem rebound_of_bindEndpoints {index : Nat} {endpoints bound : List EndpointConfig}
    (hbind : bindEndpoints listen index endpoints = .ok bound) :
    List.Forall₂ (fun configured ep => ∃ bind, ep = { configured with bind := bind })
      endpoints bound := by
  induction endpoints generalizing index bound with
  | nil =>
      obtain rfl := Except.ok.inj hbind
      exact List.Forall₂.nil
  | cons endpoint rest ih =>
      unfold bindEndpoints at hbind
      cases hlisten : listen index endpoint.bind with
      | none =>
          rw [hlisten] at hbind
          cases hbind
      | some bind =>
          rw [hlisten] at hbind
          cases hrest : bindEndpoints listen (index + 1) rest with
          | error msg =>
              rw [hrest] at hbind
              cases hbind
          | ok others =>
              rw [hrest] at hbind
              obtain rfl := Except.ok.inj hbind
              exact List.Forall₂.cons ⟨bind, rfl⟩ (ih hrest)

theorem rebound_of_bind {config : Config} {server : BoundServer}
    (hbind : BoundServer.bind listen config = .ok server) :
    List.Forall₂ (fun configured ep => ∃ bind, ep = { configured with bind := bind })
      config.endpoints server.endpoints := by
  unfold BoundServer.bind at hbind
  cases hvalid : config.validate with
  | error msg =>
      rw [hvalid] at hbind
      cases hbind
  | ok value =>
      rw [hvalid] at hbind
      cases hendpoints : bindEndpoints listen 0 config.endpoints with
      | error msg =>
          rw [hendpoints] at hbind
          cases hbind
      | ok endpoints =>
          rw [hendpoints] at hbind
          have hrebound := rebound_of_bindEndpoints hendpoints
          change (if config.metrics.enabled then _ else _) = _ at hbind
          split_ifs at hbind
          · cases hlisten : listen config.endpoints.length config.metrics.bind with
            | none =>
                rw [hlisten] at hbind
                cases hbind
            | some bind =>
                rw [hlisten] at hbind
                obtain rfl := Except.ok.inj hbind
                exact hrebound
          · obtain rfl := Except.ok.inj hbind
            exact hrebound

theorem served_of_bind {config : Config} {server : BoundServer}
    (hbind : BoundServer.bind listen config = .ok server) :
    ∀ ep ∈ server.endpoints, Served config ep := by
  have hall : ∀ {endpoints bound : List EndpointConfig},
      List.Forall₂ (fun configured ep => ∃ bind, ep = { configured with bind := bind })
        endpoints bound →
      ∀ ep ∈ bound, ∃ configured ∈ endpoints, ∃ bind, ep = { configured with bind := bind } := by
    intro endpoints bound hrebound
    induction hrebound with
    | nil => exact List.forall_mem_nil _
    | @cons configured ep rest others hep _ ih =>
        refine List.forall_mem_cons.mpr ⟨⟨configured, List.mem_cons_self, hep⟩, ?_⟩
        intro other hother
        obtain ⟨found, hfound, hsame⟩ := ih other hother
        exact ⟨found, List.mem_cons_of_mem _ hfound, hsame⟩
  exact hall (rebound_of_bind hbind)

theorem names_of_bind {config : Config} {server : BoundServer}
    (hbind : BoundServer.bind listen config = .ok server) :
    server.endpoints.map EndpointConfig.name = config.endpoints.map EndpointConfig.name := by
  have hnames := (List.forall₂_map_left_iff.mpr (List.forall₂_map_right_iff.mpr
    ((rebound_of_bind hbind).imp fun configured ep hep => ?_)) :
      List.Forall₂ (· = ·) (config.endpoints.map EndpointConfig.name)
        (server.endpoints.map EndpointConfig.name))
  · exact (List.forall₂_eq_eq_eq ▸ hnames).symm
  · obtain ⟨bind, rfl⟩ := hep
    rfl

end BoundServer

/-! ### Labels -/

/-- The label of an endpoint without a name. -/
def EndpointConfig.defaultLabel (ep : EndpointConfig) : String :=
  ep.protocol.asStr ++ "-" ++ toString ep.bind.port.toNat

/-- Nothing keeps these two apart: neither has a name and they share protocol
and port, or the name of one is the default of the other. -/
def Confusable (a b : EndpointConfig) : Prop :=
  (a.name = "" ∧ b.name = "" ∧ a.protocol = b.protocol ∧ a.bind.port = b.bind.port) ∨
    (a.name = "" ∧ b.name = a.defaultLabel) ∨ (b.name = "" ∧ a.name = b.defaultLabel)

instance (a b : EndpointConfig) : Decidable (Confusable a b) :=
  inferInstanceAs (Decidable ((_ ∧ _) ∨ (_ ∧ _) ∨ (_ ∧ _)))

theorem defaultLabel_inj {a b : EndpointConfig} :
    a.defaultLabel = b.defaultLabel ↔ a.protocol = b.protocol ∧ a.bind.port = b.bind.port := by
  constructor
  · intro heq
    unfold EndpointConfig.defaultLabel at heq
    have hlist := congrArg String.toList heq
    simp only [String.toList_append] at hlist
    have hprotocol : a.protocol = b.protocol := by
      -- The names of the protocols differ in their first letters.
      cases ha : a.protocol <;> cases hb : b.protocol <;> first
        | rfl
        | simp [ha, hb, Protocol.asStr] at hlist
    rw [hprotocol, List.append_cancel_left_eq] at hlist
    exact ⟨hprotocol, UInt16.toNat_inj.mp (Nat.repr_inj.mp (String.toList_inj.mp hlist))⟩
  · rintro ⟨hprotocol, hport⟩
    unfold EndpointConfig.defaultLabel
    rw [hprotocol, hport]

theorem defaultLabel_ne (ep : EndpointConfig) : ep.defaultLabel ≠ "" := by
  intro heq
  have hlist := congrArg String.toList heq
  simp [EndpointConfig.defaultLabel] at hlist

theorem label_eq_iff {a b : EndpointConfig} (hnames : a.name ≠ "" → a.name ≠ b.name) :
    a.label = b.label ↔ Confusable a b := by
  have hlabel (ep : EndpointConfig) :
      ep.label = if ep.name = "" then ep.defaultLabel else ep.name := rfl
  unfold Confusable
  rw [hlabel, hlabel, ← defaultLabel_inj]
  split_ifs with ha hb hb
  · simp [ha, hb, (defaultLabel_ne _).symm]
  · rw [eq_comm]
    simp [ha, hb]
  · simp [ha, hb]
  · simp [ha, hb, hnames ha]

/-- Where the explicit names differ, labels are unique exactly without a
confusable pair. -/
theorem nodup_labels_iff {endpoints : List EndpointConfig}
    (hnames : ((endpoints.map EndpointConfig.name).filter (· ≠ "")).Nodup) :
    (endpoints.map EndpointConfig.label).Nodup ↔
      endpoints.Pairwise fun a b => ¬ Confusable a b := by
  have hdistinct : endpoints.Pairwise fun a b => a.name ≠ "" → a.name ≠ b.name := by
    rw [List.filter_map, List.Nodup, List.pairwise_map, List.pairwise_filter] at hnames
    refine hnames.imp ?_
    intro a b hab ha heq
    exact hab (by simpa using ha) (by simpa [← heq] using ha) heq
  rw [List.Nodup, List.pairwise_map]
  refine ⟨fun h => ?_, fun h => ?_⟩
  · exact (h.and hdistinct).imp fun hab => (label_eq_iff hab.2).not.mp hab.1
  · exact (h.and hdistinct).imp fun hab => (label_eq_iff hab.2).not.mpr hab.1

/-- The name of the endpoint in a record, over all sessions on these
endpoints, is the name of one of them only. -/
def RecordsNameOne (canonicalReason : UInt16 → Option String) (cfg : Config)
    (endpoints : List EndpointConfig) : Prop :=
  ∀ (i j : Nat) (a b : EndpointConfig), endpoints[i]? = some a → endpoints[j]? = some b →
    ∀ conn conn' : Connection,
      (conn.record canonicalReason cfg a).endpoint = (conn'.record canonicalReason cfg b).endpoint →
        i = j

theorem recordsNameOne_iff (canonicalReason : UInt16 → Option String) {cfg : Config}
    (hcfg : cfg.Accepted) (endpoints : List EndpointConfig) :
    RecordsNameOne canonicalReason cfg endpoints ↔ (endpoints.map EndpointConfig.label).Nodup := by
  have hendpoint (conn : Connection) (ep : EndpointConfig) :
      (conn.record canonicalReason cfg ep).endpoint = ep.label :=
    (conn.record_wellFormed canonicalReason hcfg ep).endpoint
  unfold RecordsNameOne
  simp only [hendpoint]
  rw [List.nodup_iff_getElem?_ne_getElem?]
  constructor
  · intro h i j hlt hlength heq
    rw [List.length_map] at hlength
    rw [List.getElem?_map, List.getElem?_map, List.getElem?_eq_getElem (by omega),
      List.getElem?_eq_getElem hlength, Option.map_some, Option.map_some, Option.some.injEq] at heq
    have hsame := h i j _ _ (List.getElem?_eq_getElem (by omega)) (List.getElem?_eq_getElem hlength)
      (client "" none) (client "" none) heq
    omega
  · intro h i j a b ha hb _ _ heq
    have hmap {k : Nat} {ep : EndpointConfig} (hep : endpoints[k]? = some ep) :
        (endpoints.map EndpointConfig.label)[k]? = some ep.label := by simp [hep]
    rcases Nat.lt_trichotomy i j with hlt | hsame | hgt
    · have hlength := (List.getElem?_eq_some_iff.mp (hmap hb)).1
      exact absurd (by rw [hmap ha, hmap hb, heq]) (h i j hlt hlength)
    · exact hsame
    · have hlength := (List.getElem?_eq_some_iff.mp (hmap ha)).1
      exact absurd (by rw [hmap ha, hmap hb, heq]) (h j i hgt hlength)

/-- Labels identify endpoints exactly where no two are confusable, before
binding and after it. -/
theorem labels_identify_iff (canonicalReason : UInt16 → Option String) {cfg : Config}
    (hvalid : cfg.validate = .ok ()) :
    (((cfg.endpoints.filter (·.bind.port ≠ 0)).map EndpointConfig.label).Nodup ↔
      (cfg.endpoints.filter (·.bind.port ≠ 0)).Pairwise fun a b => ¬ Confusable a b) ∧
    ∀ listen server, BoundServer.bind listen cfg = .ok server →
      ((server.endpoints.map EndpointConfig.label).Nodup ↔
        server.endpoints.Pairwise fun a b => ¬ Confusable a b) ∧
      (RecordsNameOne canonicalReason cfg server.endpoints ↔
        server.endpoints.Pairwise fun a b => ¬ Confusable a b) := by
  have hcfg := (validate_ok_iff cfg).mp hvalid
  constructor
  · refine nodup_labels_iff (hcfg.distinctNames.sublist ?_)
    exact (List.filter_sublist.map _).filter _
  · intro listen server hbind
    have hnodup : (server.endpoints.map EndpointConfig.label).Nodup ↔
        server.endpoints.Pairwise fun a b => ¬ Confusable a b := by
      apply nodup_labels_iff
      rw [BoundServer.names_of_bind hbind]
      exact hcfg.distinctNames
    exact ⟨hnodup, (recordsNameOne_iff canonicalReason hcfg _).trans hnodup⟩

/-- A name keeps the second endpoint on a port apart from the first. -/
theorem labels_identify_named :
    let cfg : Config := { endpoints := [
      { bind := .V4 0x7f000001#32 22, protocol := .Ssh },
      { name := "second", bind := .V4 0x7f000002#32 22, protocol := .Ssh }] }
    ((cfg.endpoints.filter (·.bind.port ≠ 0)).map EndpointConfig.label).Nodup ∧
      ∃ server, BoundServer.bind (fun _ addr => some addr) cfg = .ok server ∧
        RecordsNameOne (fun _ => none) cfg server.endpoints := by
  intro cfg
  have hvalid : cfg.validate = .ok () := by decide
  have hbind : BoundServer.bind (fun _ addr => some addr) cfg = .ok ⟨cfg.endpoints, none⟩ := by
    rw [BoundServer.bind, hvalid]
    rfl
  have hlaw := labels_identify_iff (fun _ => none) hvalid
  exact ⟨hlaw.1.mpr (by decide), _, hbind, (hlaw.2 _ _ hbind).2.mpr (by decide)⟩

/-- Without one, both are called "ssh-22". -/
theorem labels_collide :
    let cfg : Config := { endpoints := [
      { bind := .V4 0x7f000001#32 22, protocol := .Ssh },
      { bind := .V4 0x7f000002#32 22, protocol := .Ssh }] }
    cfg.validate = .ok () ∧
      ¬ ((cfg.endpoints.filter (·.bind.port ≠ 0)).map EndpointConfig.label).Nodup ∧
      ∃ server, BoundServer.bind (fun _ addr => some addr) cfg = .ok server ∧
        ¬ (server.endpoints.map EndpointConfig.label).Nodup := by
  intro cfg
  have hvalid : cfg.validate = .ok () := by decide
  refine ⟨hvalid, by decide, ⟨cfg.endpoints, none⟩, ?_, by decide⟩
  rw [BoundServer.bind, hvalid]
  rfl

end Minotaur
