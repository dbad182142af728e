import AsioUtils.CPG.Json

/-!
# `ServerConfigManager`: who connects where

The configuration file lists the services and the instances that run each of them. An instance has an address, a
listener for each type of server that may connect to it, and the types of the services it connects to. The endpoints it
connects to are looked up among the listeners of the others and stored in place, while the loop reads the services.

* `load`, `parseConnectors` : the two steps of the constructor; a `Fault` ends it;
* `configForType`, `listenInfo`, `connectInfos` : the lookups, which take the first of a type;
* `load_fileJson` : a configuration is read from the parsed file as it stands there;
* `parseConnectors_eq` : what the loops come to;
* `connects_iff` : the endpoints that an instance has, for whatever file is loaded.
-/

namespace AsioUtils.CPG

/-! ## Access to a value that is not constant -/

namespace Json

/-- `operator[]`: a missing member is there as a null, and a null becomes an object. -/
def member (j : Json) (key : String) : Except Fault Json :=
  match j with
  | object fields => .ok (((object fields).find? key).getD null)
  | null => .ok null
  | j => .error (.type_error 305 ("cannot use operator[] with " ++ j.type_name))

def getArray : Json → Except Fault (List Json)
  | array items => .ok items
  | j => .error (.type_error 302 ("type must be array, but is " ++ j.type_name))

def getUnsignedShort : Json → Except Fault Nat := getArithmetic (fun i => (i % 65536).toNat) 0 65535

end Json

/-! ## The configuration -/

structure ServerNetConfig.ServerNetInfo where
  type : Int := 0
  port : Nat := 0
  ip : String := ""
  deriving DecidableEq, Repr

structure ServerNetConfig.ServerInfo where
  ip : String
  connectTypes : List Int := []
  listenInfos : List ServerNetInfo := []
  /-- computed by `parseConnectors` -/
  connectInfos : List ServerNetInfo := []
  deriving DecidableEq, Repr

structure ServerNetConfig where
  type : Int
  name : String
  infos : List ServerNetConfig.ServerInfo
  deriving DecidableEq, Repr

namespace ServerConfigManager

open ServerNetConfig

def convertListen (listen : Json) : Except Json.Fault ServerNetInfo := do
  let type ← (← listen.member "type").getInt
  let port ← (← listen.member "port").getUnsignedShort
  return { type := type, port := port }

def convertInfo (info : Json) : Except Json.Fault ServerNetConfig.ServerInfo := do
  let ip ← (← info.member "ip").getString
  let listens ← (← info.member "listen").getArray
  let listenInfos ← listens.mapM fun listen => return { ← convertListen listen with ip := ip }
  let connectJson ← info.member "connect"
  let connectTypes ← if connectJson.is_null then .ok [] else (do (← connectJson.getArray).mapM Json.getInt)
  return { ip := ip, listenInfos := listenInfos, connectTypes := connectTypes }

/-- One round of the loop of `load`. -/
def convertService (service : Json) : Except Json.Fault ServerNetConfig := do
  let name ← (← service.member "name").getString
  let type ← (← service.member "type").getInt
  let infos ← (← (← service.member "info").getArray).mapM convertInfo
  return { type := type, name := name, infos := infos }

/-- `services_`; a file that is `null` fails an assertion. -/
def load (file_json : Json) : Except Json.Fault (List ServerNetConfig) :=
  if file_json.is_null then .error .assertion
  else do (← (← file_json.member "data").getArray).mapM convertService

def configForType (services_ : List ServerNetConfig) (type : Int) : Option ServerNetConfig :=
  services_.find? fun service => service.type = type

def listenInfo (info : ServerNetConfig.ServerInfo) (type : Int) : Option ServerNetInfo :=
  info.listenInfos.find? fun listen => listen.type = type

/-- The endpoints have the type of the service that is connected to. -/
def connectInfos (services_ : List ServerNetConfig) (connectType thisType : Int) : List ServerNetInfo :=
  match configForType services_ connectType with
  | some config => config.infos.filterMap fun info =>
      (listenInfo info thisType).map fun iinfo => { iinfo with type := config.type }
  | none => []

/-! The loops of `parseConnectors`. Each is given what the services are while the part that it writes is as given. -/

def parseTypes (services_ : ServerNetConfig.ServerInfo → List ServerNetConfig) (thisType : Int)
    (info : ServerNetConfig.ServerInfo) : List Int → ServerNetConfig.ServerInfo
  | [] => info
  | type :: types =>
    parseTypes services_ thisType
      { info with connectInfos := info.connectInfos ++ connectInfos (services_ info) type thisType } types

def parseInfos (services_ : List ServerNetConfig.ServerInfo → List ServerNetConfig) (thisType : Int)
    (done : List ServerNetConfig.ServerInfo) : List ServerNetConfig.ServerInfo → List ServerNetConfig.ServerInfo
  | [] => done
  | info :: infos =>
    parseInfos services_ thisType
      (done ++ [parseTypes (fun info => services_ (done ++ info :: infos)) thisType info info.connectTypes]) infos

def parseServices (done : List ServerNetConfig) : List ServerNetConfig → List ServerNetConfig
  | [] => done
  | service :: services =>
    parseServices (done ++ [{ service with
      infos := parseInfos (fun infos => done ++ { service with infos := infos } :: services) service.type [] service.infos }])
      services

def parseConnectors (services_ : List ServerNetConfig) : List ServerNetConfig := parseServices [] services_

/-! ## A configuration and its file -/

/-- A number of the file as the parser reads it: signed only behind a minus sign. -/
def numberJson (i : Int) : Json := if 0 ≤ i then .number_unsigned i.toNat else .number_integer i

def listenJson (l : ServerNetInfo) : Json := .object [("type", numberJson l.type), ("port", numberJson l.port)]

def infoJson (info : ServerNetConfig.ServerInfo) : Json :=
  .object [("ip", .string info.ip), ("listen", .array (info.listenInfos.map listenJson)),
    ("connect", .array (info.connectTypes.map numberJson))]

def serviceJson (service : ServerNetConfig) : Json :=
  .object [("name", .string service.name), ("type", numberJson service.type),
    ("info", .array (service.infos.map infoJson))]

/-- What `in >> file_json` makes of a file that configures these services. -/
def fileJson (services : List ServerNetConfig) : Json := .object [("data", .array (services.map serviceJson))]

def IsInt (i : Int) : Prop := -2147483648 ≤ i ∧ i < 2147483648

instance (i : Int) : Decidable (IsInt i) := inferInstanceAs (Decidable (_ ∧ _))

/-- The listeners have the address of the instance, and nothing has been computed yet. -/
structure Writable (info : ServerNetConfig.ServerInfo) : Prop where
  listens : ∀ l ∈ info.listenInfos, IsInt l.type ∧ l.port < 65536 ∧ l.ip = info.ip
  connects : ∀ type ∈ info.connectTypes, IsInt type
  computed : info.connectInfos = []

/-- Items that are read one after the other, each as it was before it was written. -/
theorem mapM_written {α : Type} {write : α → Json} {read : Json → Except Json.Fault α} {xs : List α}
    (h : ∀ x ∈ xs, read (write x) = .ok x) : (xs.map write).mapM read = .ok xs := by
  induction xs with
  | nil => rfl
  | cons x xs ih =>
    obtain ⟨hx, hxs⟩ := List.forall_mem_cons.mp h
    rw [List.map_cons, List.mapM_cons, hx, ih hxs]
    rfl

theorem getInt_written {i : Int} (h : IsInt i) : (numberJson i).getInt = .ok i := by
  have hcast : castInt i = i := castInt_of_range h.1 h.2
  unfold numberJson
  split_ifs with h0
  · show Except.ok (castInt i.toNat) = _
    rw [Int.toNat_of_nonneg h0, hcast]
  · exact congrArg Except.ok hcast

theorem getUnsignedShort_written {n : Nat} (h : n < 65536) : (numberJson n).getUnsignedShort = .ok n := by
  rw [numberJson, if_pos (Int.natCast_nonneg n)]
  show Except.ok (((n : Int).toNat : Int) % 65536).toNat = _
  rw [Int.toNat_natCast, Int.emod_eq_of_lt (by omega) (by omega), Int.toNat_natCast]

theorem ok_bind {α β : Type} (a : α) (f : α → Except Json.Fault β) : (Except.ok a >>= f) = f a := rfl

theorem convertListen_written {l : ServerNetInfo} (htype : IsInt l.type) (hport : l.port < 65536) :
    convertListen (listenJson l) = .ok { l with ip := "" } := by
  have htypeMember : (listenJson l).member "type" = .ok (numberJson l.type) := rfl
  have hportMember : (listenJson l).member "port" = .ok (numberJson l.port) := rfl
  simp only [convertListen, htypeMember, hportMember, ok_bind, getInt_written htype, getUnsignedShort_written hport]
  rfl

theorem convertInfo_written {info : ServerNetConfig.ServerInfo} (h : Writable info) :
    convertInfo (infoJson info) = .ok info := by
  have hipMember : (infoJson info).member "ip" = .ok (.string info.ip) := rfl
  have hlistenMember : (infoJson info).member "listen" = .ok (.array (info.listenInfos.map listenJson)) := rfl
  have hconnectMember : (infoJson info).member "connect" = .ok (.array (info.connectTypes.map numberJson)) := rfl
  have hlistens : (info.listenInfos.map listenJson).mapM (fun listen => do
      return { ← convertListen listen with ip := info.ip }) = .ok info.listenInfos := by
    refine mapM_written fun l hl => ?_
    obtain ⟨htype, hport, hip⟩ := h.listens l hl
    rw [convertListen_written htype hport, ← hip]
    rfl
  have hconnects : (info.connectTypes.map numberJson).mapM Json.getInt = .ok info.connectTypes :=
    mapM_written fun type htype => getInt_written (h.connects type htype)
  simp only [convertInfo, hipMember, hlistenMember, hconnectMember, ok_bind, Json.getString, Json.getArray, hlistens,
    hconnects, Json.is_null, Bool.false_eq_true, if_false]
  rw [← h.computed]
  rfl

theorem convertService_written {service : ServerNetConfig} (htype : IsInt service.type)
    (hinfos : ∀ info ∈ service.infos, Writable info) : convertService (serviceJson service) = .ok service := by
  have hname : (serviceJson service).member "name" = .ok (.string service.name) := rfl
  have htypeMember : (serviceJson service).member "type" = .ok (numberJson service.type) := rfl
  have hinfo : (serviceJson service).member "info" = .ok (.array (service.infos.map infoJson)) := rfl
  simp only [convertService, hname, htypeMember, hinfo, ok_bind, Json.getString, Json.getArray, getInt_written htype,
    mapM_written fun info hinfo => convertInfo_written (hinfos info hinfo)]
  rfl

/-- **A configuration is read as it was written.** -/
theorem load_fileJson (services : List ServerNetConfig)
    (h : ∀ service ∈ services, IsInt service.type ∧ ∀ info ∈ service.infos, Writable info) :
    load (fileJson services) = .ok services := by
  have hdata : (fileJson services).member "data" = .ok (.array (services.map serviceJson)) := rfl
  rw [load, if_neg (by simp [fileJson, Json.is_null])]
  simp only [hdata, ok_bind, Json.getArray]
  exact mapM_written fun service hservice => convertService_written (h service hservice).1 (h service hservice).2

/-- A match server with two instances, the second of which listens to nobody, and a gate that connects to it. -/
def sampleServices : List ServerNetConfig :=
  [⟨3, "MS", [{ ip := "10.0.0.1", listenInfos := [⟨1, 7831, "10.0.0.1"⟩] }, { ip := "10.0.0.2" }]⟩,
    ⟨1, "GS", [{ ip := "10.0.0.3", connectTypes := [5, 3], listenInfos := [⟨0, 7811, "10.0.0.3"⟩] }]⟩]

theorem sampleServices_writable :
    ∀ service ∈ sampleServices, IsInt service.type ∧ ∀ info ∈ service.infos, Writable info := by
  intro service hservice
  simp only [sampleServices, List.mem_cons, List.not_mem_nil, or_false] at hservice
  rcases hservice with rfl | rfl
  · refine ⟨by decide, fun info hinfo => ?_⟩
    simp only [List.mem_cons, List.not_mem_nil, or_false] at hinfo
    rcases hinfo with rfl | rfl
    · exact ⟨by decide, by decide, rfl⟩
    · exact ⟨by decide, by decide, rfl⟩
  · refine ⟨by decide, fun info hinfo => ?_⟩
    rw [List.mem_singleton.mp hinfo]
    exact ⟨by decide, by decide, rfl⟩

theorem load_fileJson_sample :
    (∀ service ∈ sampleServices, IsInt service.type ∧ ∀ info ∈ service.infos, Writable info) ∧
      load (fileJson sampleServices) = .ok sampleServices :=
  ⟨sampleServices_writable, load_fileJson sampleServices sampleServices_writable⟩

/-! ## The loops -/

/-- What the lookups of endpoints read: the type of each service, and the listeners of its instances. -/
def listening (services_ : List ServerNetConfig) : List (Int × List (List ServerNetInfo)) :=
  services_.map fun service => (service.type, service.infos.map ServerNetConfig.ServerInfo.listenInfos)

theorem connectInfos_eq (services_ : List ServerNetConfig) (connectType thisType : Int) :
    connectInfos services_ connectType thisType =
      match (listening services_).find? fun l => l.1 = connectType with
      | some l => l.2.filterMap fun listens =>
          (listens.find? fun listen => listen.type = thisType).map fun iinfo => { iinfo with type := l.1 }
      | none => [] := by
  have hcomp : ((fun l : Int × List (List ServerNetInfo) => decide (l.1 = connectType)) ∘ fun service : ServerNetConfig =>
      (service.type, service.infos.map ServerNetConfig.ServerInfo.listenInfos)) =
      fun service => decide (service.type = connectType) := rfl
  unfold connectInfos configForType listening
  rw [List.find?_map, hcomp]
  cases services_.find? fun service => service.type = connectType with
  | none => rfl
  | some config =>
    show _ = (config.infos.map _).filterMap _
    rw [List.filterMap_map]
    rfl

/-- The endpoints depend on the listeners only. -/
theorem connectInfos_congr {services_ services' : List ServerNetConfig} (h : listening services' = listening services_) :
    connectInfos services' = connectInfos services_ := by
  funext connectType thisType
  rw [connectInfos_eq, connectInfos_eq, h]

/-- An instance of a service of type `thisType`, with all its endpoints. -/
def connected (services_ : List ServerNetConfig) (thisType : Int) (info : ServerNetConfig.ServerInfo) :
    ServerNetConfig.ServerInfo :=
  { info with
    connectInfos := info.connectInfos ++ info.connectTypes.flatMap fun type => connectInfos services_ type thisType }

section Loops

variable {services : List ServerNetConfig}

theorem parseTypes_eq {services_ : ServerNetConfig.ServerInfo → List ServerNetConfig} {thisType : Int}
    {info : ServerNetConfig.ServerInfo} {types : List Int}
    (h : ∀ conns, listening (services_ { info with connectInfos := conns }) = listening services) :
    parseTypes services_ thisType info types = { info with
      connectInfos := info.connectInfos ++ types.flatMap fun type => connectInfos services type thisType } := by
  induction types generalizing info with
  | nil => rw [parseTypes, List.flatMap_nil, List.append_nil]
  | cons type types ih =>
    rw [parseTypes, connectInfos_congr (h info.connectInfos), List.flatMap_cons, ← List.append_assoc]
    exact ih h

theorem parseInfos_eq {services_ : List ServerNetConfig.ServerInfo → List ServerNetConfig} {thisType : Int}
    {done infos : List ServerNetConfig.ServerInfo}
    (h : ∀ infos', infos'.map ServerNetConfig.ServerInfo.listenInfos =
      (done ++ infos).map ServerNetConfig.ServerInfo.listenInfos → listening (services_ infos') = listening services) :
    parseInfos services_ thisType done infos = done ++ infos.map (connected services thisType) := by
  induction infos generalizing done with
  | nil => rw [parseInfos, List.map_nil, List.append_nil]
  | cons info infos ih =>
    have htypes : parseTypes (fun info => services_ (done ++ info :: infos)) thisType info info.connectTypes =
        connected services thisType info := parseTypes_eq fun conns => h _ (by simp)
    rw [parseInfos, htypes, ih fun infos' hsame => h infos' (by rw [hsame]; simp [connected]), List.append_assoc]
    rfl

theorem parseServices_eq {done rest : List ServerNetConfig} (h : listening (done ++ rest) = listening services) :
    parseServices done rest = done ++ rest.map fun service =>
      { service with infos := service.infos.map (connected services service.type) } := by
  induction rest generalizing done with
  | nil => rw [parseServices, List.map_nil, List.append_nil]
  | cons service rest ih =>
    have hinfos : parseInfos (fun infos => done ++ { service with infos := infos } :: rest) service.type [] service.infos =
        service.infos.map (connected services service.type) := by
      refine parseInfos_eq fun infos' hsame => ?_
      rw [← h]
      simp only [listening, List.map_append, List.map_cons, hsame, List.nil_append]
    rw [parseServices, hinfos, ih, List.append_assoc]
    · rfl
    · rw [← h]
      simp [listening, connected, Function.comp_def]

end Loops

/-- The services, each instance with its endpoints. -/
theorem parseConnectors_eq (services : List ServerNetConfig) : parseConnectors services = services.map fun service =>
    { service with infos := service.infos.map (connected services service.type) } :=
  parseServices_eq rfl

/-! ## The endpoints -/

theorem mem_connectInfos {services_ : List ServerNetConfig} {connectType thisType : Int} {c : ServerNetInfo} :
    c ∈ connectInfos services_ connectType thisType ↔ c.type = connectType ∧
      ∃ C, configForType services_ c.type = some C ∧ ∃ J ∈ C.infos, ∃ l, listenInfo J thisType = some l ∧
        c = { l with type := C.type } := by
  have htype : ∀ C, configForType services_ connectType = some C → C.type = connectType := fun C hC => by
    have hfound := List.find?_some hC
    exact of_decide_eq_true hfound
  unfold connectInfos
  constructor
  · cases hC : configForType services_ connectType with
    | none => simp
    | some C =>
      intro hc
      obtain ⟨J, hJ, hfound⟩ := List.mem_filterMap.mp hc
      obtain ⟨l, hl, rfl⟩ := Option.map_eq_some_iff.mp hfound
      exact ⟨htype C hC, C, (htype C hC).symm ▸ hC, J, hJ, l, hl, rfl⟩
  · rintro ⟨rfl, C, hC, J, hJ, l, hl, heq⟩
    rw [hC]
    exact List.mem_filterMap.mpr ⟨J, hJ, by rw [hl, heq]; rfl⟩

theorem of_mapM_ok {α β : Type} {f : α → Except Json.Fault β} {xs : List α} {ys : List β} (h : xs.mapM f = .ok ys) :
    ∀ y ∈ ys, ∃ x ∈ xs, f x = .ok y := by
  induction xs generalizing ys with
  | nil =>
    cases h
    simp
  | cons x xs ih =>
    rw [List.mapM_cons] at h
    cases hx : f x with
    | error fault => rw [hx] at h; cases h
    | ok y =>
      cases hxs : xs.mapM f with
      | error fault => rw [hx, hxs] at h; cases h
      | ok ys' =>
        rw [hx, hxs] at h
        cases h
        intro z hz
        rcases List.mem_cons.mp hz with rfl | hz
        · exact ⟨x, List.mem_cons_self, hx⟩
        · obtain ⟨x', hx', hfx'⟩ := ih hxs z hz
          exact ⟨x', List.mem_cons_of_mem _ hx', hfx'⟩

theorem bind_ok {α β : Type} {x : Except Json.Fault α} {f : α → Except Json.Fault β} {b : β} (h : (x >>= f) = .ok b) :
    ∃ a, x = .ok a ∧ f a = .ok b := by
  cases x with
  | error fault => cases h
  | ok a => exact ⟨a, rfl, h⟩

/-- What is read of an instance: its listeners have its address, and it has no endpoints yet. -/
theorem convertInfo_ok {j : Json} {info : ServerNetConfig.ServerInfo} (h : convertInfo j = .ok info) :
    info.connectInfos = [] ∧ ∀ l ∈ info.listenInfos, l.ip = info.ip := by
  obtain ⟨_, _, h⟩ := bind_ok h
  obtain ⟨ip, _, h⟩ := bind_ok h
  obtain ⟨_, _, h⟩ := bind_ok h
  obtain ⟨listens, _, h⟩ := bind_ok h
  obtain ⟨listenInfos, hlistens, h⟩ := bind_ok h
  obtain ⟨connectJson, _, h⟩ := bind_ok h
  have hips : ∀ l ∈ listenInfos, l.ip = ip := fun l hl => by
    obtain ⟨listen, -, hlisten⟩ := of_mapM_ok hlistens l hl
    obtain ⟨l', -, hl'⟩ := bind_ok hlisten
    cases hl'
    rfl
  dsimp only at h
  split_ifs at h
  · obtain ⟨connectTypes, -, h⟩ := bind_ok h
    cases h
    exact ⟨rfl, hips⟩
  · obtain ⟨connectTypes, -, h⟩ := bind_ok h
    cases h
    exact ⟨rfl, hips⟩

theorem convertService_ok {j : Json} {service : ServerNetConfig} (h : convertService j = .ok service) :
    ∀ info ∈ service.infos, ∃ j', convertInfo j' = .ok info := by
  obtain ⟨_, _, h⟩ := bind_ok h
  obtain ⟨name, _, h⟩ := bind_ok h
  obtain ⟨_, _, h⟩ := bind_ok h
  obtain ⟨type, _, h⟩ := bind_ok h
  obtain ⟨_, _, h⟩ := bind_ok h
  obtain ⟨_, _, h⟩ := bind_ok h
  obtain ⟨infos, hinfos, h⟩ := bind_ok h
  cases h
  intro info hinfo
  obtain ⟨j', -, hj'⟩ := of_mapM_ok hinfos info hinfo
  exact ⟨j', hj'⟩

theorem load_ok {file : Json} {services : List ServerNetConfig} (h : load file = .ok services) :
    ∀ service ∈ services, ∀ info ∈ service.infos,
      info.connectInfos = [] ∧ ∀ l ∈ info.listenInfos, l.ip = info.ip := by
  intro service hservice info hinfo
  unfold load at h
  split_ifs at h
  obtain ⟨_, _, h⟩ := bind_ok h
  obtain ⟨items, _, h⟩ := bind_ok h
  obtain ⟨j, -, hj⟩ := of_mapM_ok h service hservice
  obtain ⟨j', hj'⟩ := convertService_ok hj info hinfo
  exact convertInfo_ok hj'

/-- **Who connects where**: whatever file is loaded, an instance connects to the instances of the first service of each
of its connect types, those that listen to its own type, at the address of the instance and as to a server of the type
of that service. -/
theorem connects_iff (file : Json) (services : List ServerNetConfig) (hload : load file = .ok services) :
    ∀ S ∈ parseConnectors services, ∀ I ∈ S.infos, ∀ c, c ∈ I.connectInfos ↔
      c.type ∈ I.connectTypes ∧ ∃ C, configForType (parseConnectors services) c.type = some C ∧
        ∃ J ∈ C.infos, ∃ l, listenInfo J S.type = some l ∧ l.ip = J.ip ∧ c = { l with type := C.type } := by
  have hlistening : listening (parseConnectors services) = listening services := by
    rw [parseConnectors_eq]
    simp [listening, connected, Function.comp_def]
  have hfrom : ∀ S ∈ parseConnectors services, ∀ I ∈ S.infos, ∃ I₀, I = connected services S.type I₀ ∧
      I₀.connectInfos = [] ∧ ∀ l ∈ I₀.listenInfos, l.ip = I₀.ip := by
    intro S hS I hI
    rw [parseConnectors_eq] at hS
    obtain ⟨S₀, hS₀, rfl⟩ := List.mem_map.mp hS
    obtain ⟨I₀, hI₀, rfl⟩ := List.mem_map.mp hI
    exact ⟨I₀, rfl, load_ok hload S₀ hS₀ I₀ hI₀⟩
  intro S hS I hI c
  obtain ⟨I₀, rfl, hnone, -⟩ := hfrom S hS I hI
  rw [connected, hnone, List.nil_append, List.mem_flatMap, ← connectInfos_congr hlistening]
  simp only [mem_connectInfos]
  constructor
  · rintro ⟨type, htype, rfl, C, hC, J, hJ, l, hl, heq⟩
    obtain ⟨J₀, rfl, -, hip⟩ := hfrom C (List.mem_of_find?_eq_some hC) J hJ
    exact ⟨htype, C, hC, _, hJ, l, hl, hip l (List.mem_of_find?_eq_some hl), heq⟩
  · rintro ⟨htype, C, hC, J, hJ, l, hl, -, heq⟩
    exact ⟨c.type, htype, rfl, C, hC, J, hJ, l, hl, heq⟩

theorem connects_iff_sample : load (fileJson sampleServices) = .ok sampleServices ∧
    ∀ S ∈ parseConnectors sampleServices, ∀ I ∈ S.infos, ∀ c, c ∈ I.connectInfos ↔
      c.type ∈ I.connectTypes ∧ ∃ C, configForType (parseConnectors sampleServices) c.type = some C ∧
        ∃ J ∈ C.infos, ∃ l, listenInfo J S.type = some l ∧ l.ip = J.ip ∧ c = { l with type := C.type } :=
  ⟨rfl, connects_iff (fileJson sampleServices) sampleServices rfl⟩

/-- The gate connects to the first match server only, and to no central server. -/
example : (parseConnectors sampleServices).flatMap (fun S => S.infos.flatMap fun I => I.connectInfos) =
    [⟨3, 7831, "10.0.0.1"⟩] := by decide

end ServerConfigManager

end AsioUtils.CPG
