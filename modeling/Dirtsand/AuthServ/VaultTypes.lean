import Dirtsand.Types.Uuid

/-!
# Vault nodes

`DS::Vault::Node` and `DS::Vault::NodeRef` (AuthServ/VaultTypes.h).  A field of
a node that is not set is `none`.
-/

namespace Dirtsand.Vault

/-- `DS::Vault::NodeType`, as far as the daemon makes or looks for such nodes. -/
inductive NodeType where
  | player | age | folder | playerInfo | system | sdl | ageLink | playerInfoList
  | ageInfo | ageInfoList
deriving DecidableEq, Repr

def NodeType.toInt : NodeType → Int
  | .player => 2
  | .age => 3
  | .folder => 22
  | .playerInfo => 23
  | .system => 24
  | .sdl => 27
  | .ageLink => 28
  | .playerInfoList => 30
  | .ageInfo => 33
  | .ageInfoList => 34

/-- `DS::Vault::StandardNodes`, as far as the daemon uses them. -/
inductive StandardNode where
  | inboxFolder | buddyListFolder | ignoreListFolder | peopleIKnowAboutFolder
  | chronicleFolder | avatarOutfitFolder | subAgesFolder | ageJournalsFolder
  | ageDevicesFolder | canVisitFolder | ageOwnersFolder | agesIOwnFolder
  | agesICanVisitFolder | avatarClosetFolder | playerInviteFolder | childAgesFolder
deriving DecidableEq, Repr

def StandardNode.toInt : StandardNode → Int
  | .inboxFolder => 1
  | .buddyListFolder => 2
  | .ignoreListFolder => 3
  | .peopleIKnowAboutFolder => 4
  | .chronicleFolder => 6
  | .avatarOutfitFolder => 7
  | .subAgesFolder => 9
  | .ageJournalsFolder => 14
  | .ageDevicesFolder => 15
  | .canVisitFolder => 18
  | .ageOwnersFolder => 19
  | .agesIOwnFolder => 23
  | .agesICanVisitFolder => 24
  | .avatarClosetFolder => 25
  | .playerInviteFolder => 28
  | .childAgesFolder => 31

/-- `DS::Blob`. -/
abbrev Blob := List UInt8

/-- `DS::Vault::Node`. -/
structure Node where
  nodeIdx : Option UInt32 := none
  createTime : Option UInt32 := none
  modifyTime : Option UInt32 := none
  createAgeName : Option String := none
  createAgeUuid : Option Uuid := none
  creatorUuid : Option Uuid := none
  creatorIdx : Option UInt32 := none
  nodeType : Option Int := none
  int32_1 : Option Int := none
  int32_2 : Option Int := none
  int32_3 : Option Int := none
  int32_4 : Option Int := none
  uint32_1 : Option UInt32 := none
  uint32_2 : Option UInt32 := none
  uint32_3 : Option UInt32 := none
  uint32_4 : Option UInt32 := none
  uuid_1 : Option Uuid := none
  uuid_2 : Option Uuid := none
  uuid_3 : Option Uuid := none
  uuid_4 : Option Uuid := none
  string64_1 : Option String := none
  string64_2 : Option String := none
  string64_3 : Option String := none
  string64_4 : Option String := none
  string64_5 : Option String := none
  string64_6 : Option String := none
  iString64_1 : Option String := none
  iString64_2 : Option String := none
  text_1 : Option String := none
  text_2 : Option String := none
  blob_1 : Option Blob := none
  blob_2 : Option Blob := none
deriving DecidableEq, Repr

/-- `Node::isNull`: no field is set. -/
def Node.isNull (node : Node) : Bool := node = {}

/-- `DS::Vault::NodeRef`. -/
structure NodeRef where
  parent : UInt32
  child : UInt32
  owner : UInt32
deriving DecidableEq, Repr

end Dirtsand.Vault
