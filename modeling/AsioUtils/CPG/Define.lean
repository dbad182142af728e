import Mathlib.Data.List.Basic

/-!
# Records the servers share

`CPGMatchProfile` (a match), `ServerInfo` (a registered service), the server types and the error codes.
-/

namespace AsioUtils.CPG

/-- A match, with the defaults of its members. -/
structure CPGMatchProfile where
  current_blind_level : Int := 1
  total_player_amount : Int := 0
  remained_player_amount : Int := 0
  match_state : Int := 1
  end_time : Int := 0
  mid : Int := 0
  match_type : Int
  enter_code : Int := 0
  start_time : Int
  increase_blind_time : Int
  operator_time : Int
  entryfee : Int
  entry_pool : Int := 0
  reward_coin : Int := 0
  init_chips_amount : Int
  min_players_amount : Int
  max_players_amount : Int
  delay_join_level : Int
  reward_type : Int
  start_condition : Int
  stop_condition : Int
  finish_condition : Int := 0
  finish_param : Int := 0
  first_blind_level : Int
  bonusid : Int
  guarantee_person : Int
  match_auto_cancel_second : Int := 0
  bankid : Nat := 0
  name : String
  deriving DecidableEq, Repr

/-- `ENUM_MTT_MATCH_STATE` -/
def ENUM_STATE_READY : Int := 1

inductive ServerType
  | Client | GateServer | LoginServer | MatchServer | BalanceServer | CentralServer
  deriving DecidableEq, Repr

def ServerType.toInt : ServerType → Int
  | Client => 0
  | GateServer => 1
  | LoginServer => 2
  | MatchServer => 3
  | BalanceServer => 4
  | CentralServer => 5

structure ServerInfo.Listener where
  type : Int := 0
  port : Int := 0
  ip : String := ""
  deriving DecidableEq, Repr

/-- A registered service; the traffic counters, which nothing reads, are left out. -/
structure ServerInfo where
  type : Int := 0
  sid : Int := 0
  connectTimes : Nat := 0
  lastHeartTimes : Int := 0
  loaded : Int := 0
  listeners : List ServerInfo.Listener := []
  connectTypes : List Int := []
  deriving DecidableEq, Repr

/-- `CPGServer::ServiceMatchDistibuteNotify`: the matches of a service. -/
structure ServiceMatchDistibuteNotify where
  sid : Int
  mid : List Int
  deriving DecidableEq, Repr

/-- `CPGServer::ServerAllMatchDistributeNotify`, which is its `services`. -/
abbrev ServerAllMatchDistributeNotify := List ServiceMatchDistibuteNotify

/-- `CPGServer::ServerInfo`: an endpoint of a service that listens to services of the receiver's type. -/
structure ConnServer where
  type : Int
  port : Int
  sid : Int
  ip : String
  deriving DecidableEq, Repr

/-- `CPGServer::ServerRegisterRQ`; its `type`, which nothing reads, is left out. -/
structure ServerRegisterRQ where
  sid : Int
  connectTypes : List Int := []
  listeners : List ServerInfo.Listener := []
  deriving DecidableEq, Repr

/-- `CPGServer::ServerRegisterRS` -/
structure ServerRegisterRS where
  result : Int
  sid : Int := 0
  connServers : List ConnServer := []
  deriving DecidableEq, Repr

def kNoneError : Int := 0
def kManager_MatchNotFound : Int := 10001
def kManager_MatchCancel_StartedError : Int := 10002

/-- The start time has passed. -/
def kCreateMatch_ErrorTimeOut : Int := 10101

/-- There is a match of the same start time, fee and type. -/
def kCreateMatch_ErrorHasExist : Int := 10102

end AsioUtils.CPG
