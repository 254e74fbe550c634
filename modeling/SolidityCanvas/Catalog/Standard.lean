/-
The standard catalog.

Each file is given by its lines. `standardFiles` pairs their names with their
texts.
-/

namespace SolidityCanvas.Catalog

/-- The categories. -/
def categoriesLines : List String := [
  "# Category rule table. Every template belongs to exactly one category; the",
  "# category decides the output section, the name namespace and cardinality.",
  "# Named instances take their name from `name` unless the category sets",
  "# name_property.",
  "",
  "category \"enum\" \x7b",
  "  section       = \"definitions\"",
  "  namespace     = \"state\"",
  "  named         = true",
  "  provides_type = true",
  "\x7d",
  "",
  "category \"struct\" \x7b",
  "  section       = \"definitions\"",
  "  namespace     = \"state\"",
  "  named         = true",
  "  provides_type = true",
  "\x7d",
  "",
  "category \"variable\" \x7b",
  "  section   = \"state\"",
  "  namespace = \"state\"",
  "  named     = true",
  "\x7d",
  "",
  "category \"mapping\" \x7b",
  "  section   = \"state\"",
  "  namespace = \"state\"",
  "  named     = true",
  "\x7d",
  "",
  "category \"storage-pattern\" \x7b",
  "  section = \"state\"",
  "\x7d",
  "",
  "category \"event\" \x7b",
  "  section   = \"events\"",
  "  namespace = \"event\"",
  "  named     = true",
  "\x7d",
  "",
  "category \"modifier\" \x7b",
  "  section   = \"modifiers\"",
  "  namespace = \"function\"",
  "  named     = true",
  "\x7d",
  "",
  "category \"constructor\" \x7b",
  "  section   = \"constructor\"",
  "  singleton = true",
  "\x7d",
  "",
  "category \"function\" \x7b",
  "  section   = \"functions\"",
  "  namespace = \"function\"",
  "  named     = true",
  "\x7d",
  "",
  "category \"batch-op\" \x7b",
  "  section       = \"functions\"",
  "  namespace     = \"function\"",
  "  named         = true",
  "  name_property = \"function_name\"",
  "\x7d",
  "",
  "category \"token-template\" \x7b",
  "  section = \"functions\"",
  "\x7d",
  "",
  "category \"defi-template\" \x7b",
  "  section = \"functions\"",
  "\x7d",
  "",
  "category \"governance-template\" \x7b",
  "  section = \"functions\"",
  "\x7d",
  "",
  "category \"oracle-template\" \x7b",
  "  section = \"functions\"",
  "\x7d",
  "",
  "category \"proxy-template\" \x7b",
  "  section = \"functions\"",
  "\x7d",
  "",
  "category \"crosschain-template\" \x7b",
  "  section = \"functions\"",
  "\x7d"]

/-- The rules for connections. -/
def connectionsLines : List String := [
  "# Connection compatibility table. A pair that is not listed here cannot be",
  "# connected. `order` says how the edge orders the two instances: forward",
  "# puts the source first, reverse puts the target first and none leaves them",
  "# unordered. `link` exposes the names of connected instances to the",
  "# dependent template under that variable.",
  "",
  "connection \"modifier\" \"function\" \x7b",
  "  order   = \"forward\"",
  "  link    = \"modifiers\"",
  "  meaning = \"modifier guards the function\"",
  "\x7d",
  "",
  "connection \"modifier\" \"constructor\" \x7b",
  "  order   = \"forward\"",
  "  link    = \"modifiers\"",
  "  meaning = \"modifier guards the constructor\"",
  "\x7d",
  "",
  "connection \"modifier\" \"batch-op\" \x7b",
  "  order   = \"forward\"",
  "  link    = \"modifiers\"",
  "  meaning = \"modifier guards the batch operation\"",
  "\x7d",
  "",
  "connection \"modifier\" \"token-template\" \x7b",
  "  order   = \"forward\"",
  "  link    = \"modifiers\"",
  "  meaning = \"modifier guards privileged token functions\"",
  "\x7d",
  "",
  "connection \"modifier\" \"proxy-template\" \x7b",
  "  order   = \"forward\"",
  "  link    = \"modifiers\"",
  "  meaning = \"modifier guards upgrades\"",
  "\x7d",
  "",
  "connection \"modifier\" \"crosschain-template\" \x7b",
  "  order   = \"forward\"",
  "  link    = \"modifiers\"",
  "  meaning = \"modifier guards the message receiver\"",
  "\x7d",
  "",
  "# Modifiers are emitted after state, so an ordered modifier -> variable edge",
  "# can never be honored. The pair stays compatible so such graphs reach the",
  "# resolver, which reports them as section conflicts or cycles.",
  "connection \"modifier\" \"variable\" \x7b",
  "  order   = \"forward\"",
  "  meaning = \"variable initializer depends on the modifier; always rejected as a section conflict\"",
  "\x7d",
  "",
  "connection \"event\" \"function\" \x7b",
  "  order   = \"forward\"",
  "  link    = \"events\"",
  "  meaning = \"function emits the event\"",
  "\x7d",
  "",
  "connection \"event\" \"constructor\" \x7b",
  "  order   = \"forward\"",
  "  link    = \"events\"",
  "  meaning = \"constructor emits the event\"",
  "\x7d",
  "",
  "connection \"event\" \"modifier\" \x7b",
  "  order   = \"forward\"",
  "  link    = \"events\"",
  "  meaning = \"modifier emits the event\"",
  "\x7d",
  "",
  "connection \"function\" \"event\" \x7b",
  "  order   = \"reverse\"",
  "  link    = \"events\"",
  "  meaning = \"function emits the event\"",
  "\x7d",
  "",
  "connection \"variable\" \"variable\" \x7b",
  "  order   = \"forward\"",
  "  meaning = \"variable initializer reads the variable\"",
  "\x7d",
  "",
  "connection \"variable\" \"function\" \x7b",
  "  order   = \"forward\"",
  "  meaning = \"function reads or writes the variable\"",
  "\x7d",
  "",
  "connection \"variable\" \"modifier\" \x7b",
  "  order   = \"forward\"",
  "  meaning = \"modifier reads the variable\"",
  "\x7d",
  "",
  "connection \"variable\" \"constructor\" \x7b",
  "  order   = \"forward\"",
  "  meaning = \"constructor initializes the variable\"",
  "\x7d",
  "",
  "connection \"mapping\" \"function\" \x7b",
  "  order   = \"forward\"",
  "  meaning = \"function reads or writes the mapping\"",
  "\x7d",
  "",
  "connection \"mapping\" \"modifier\" \x7b",
  "  order   = \"forward\"",
  "  meaning = \"modifier reads the mapping\"",
  "\x7d",
  "",
  "connection \"mapping\" \"constructor\" \x7b",
  "  order   = \"forward\"",
  "  meaning = \"constructor seeds the mapping\"",
  "\x7d",
  "",
  "connection \"struct\" \"function\" \x7b",
  "  order   = \"forward\"",
  "  meaning = \"function uses the struct type\"",
  "\x7d",
  "",
  "connection \"struct\" \"variable\" \x7b",
  "  order   = \"forward\"",
  "  meaning = \"variable uses the struct type\"",
  "\x7d",
  "",
  "connection \"struct\" \"mapping\" \x7b",
  "  order   = \"forward\"",
  "  meaning = \"mapping uses the struct type\"",
  "\x7d",
  "",
  "connection \"struct\" \"event\" \x7b",
  "  order   = \"forward\"",
  "  meaning = \"event uses the struct type\"",
  "\x7d",
  "",
  "connection \"struct\" \"struct\" \x7b",
  "  order   = \"forward\"",
  "  meaning = \"struct uses the struct type\"",
  "\x7d",
  "",
  "connection \"struct\" \"modifier\" \x7b",
  "  order   = \"forward\"",
  "  meaning = \"modifier uses the struct type\"",
  "\x7d",
  "",
  "connection \"enum\" \"function\" \x7b",
  "  order   = \"forward\"",
  "  meaning = \"function uses the enum type\"",
  "\x7d",
  "",
  "connection \"enum\" \"variable\" \x7b",
  "  order   = \"forward\"",
  "  meaning = \"variable uses the enum type\"",
  "\x7d",
  "",
  "connection \"enum\" \"mapping\" \x7b",
  "  order   = \"forward\"",
  "  meaning = \"mapping uses the enum type\"",
  "\x7d",
  "",
  "connection \"enum\" \"event\" \x7b",
  "  order   = \"forward\"",
  "  meaning = \"event uses the enum type\"",
  "\x7d",
  "",
  "connection \"enum\" \"struct\" \x7b",
  "  order   = \"forward\"",
  "  meaning = \"struct uses the enum type\"",
  "\x7d",
  "",
  "connection \"enum\" \"modifier\" \x7b",
  "  order   = \"forward\"",
  "  meaning = \"modifier uses the enum type\"",
  "\x7d",
  "",
  "connection \"function\" \"function\" \x7b",
  "  order   = \"none\"",
  "  link    = \"calls\"",
  "  meaning = \"target calls the source function\"",
  "\x7d",
  "",
  "connection \"function\" \"batch-op\" \x7b",
  "  order   = \"forward\"",
  "  link    = \"calls\"",
  "  meaning = \"batch operation calls the function per item\"",
  "\x7d",
  "",
  "connection \"storage-pattern\" \"function\" \x7b",
  "  order   = \"forward\"",
  "  meaning = \"function uses the storage slots\"",
  "\x7d",
  "",
  "connection \"storage-pattern\" \"modifier\" \x7b",
  "  order   = \"forward\"",
  "  meaning = \"modifier uses the storage slots\"",
  "\x7d",
  "",
  "connection \"oracle-template\" \"function\" \x7b",
  "  order   = \"forward\"",
  "  meaning = \"function reads the price feed\"",
  "\x7d",
  "",
  "connection \"token-template\" \"function\" \x7b",
  "  order   = \"forward\"",
  "  meaning = \"function uses the token internals\"",
  "\x7d"]

/-- The building blocks of the language. -/
def coreLines : List String := [
  "# Core language building blocks. Every named template declares its name",
  "# property; optional properties always carry a default so emission never sees a",
  "# missing variable.",
  "",
  "template \"state-variable\" \x7b",
  "  category    = \"variable\"",
  "  description = \"A contract-level storage variable.\"",
  "  cost        = 20000",
  "",
  "  property \"name\" \x7b",
  "    type     = string",
  "    required = true",
  "    check    = \"identifier\"",
  "  \x7d",
  "",
  "  property \"type\" \x7b",
  "    type        = string",
  "    default     = \"uint256\"",
  "    check       = \"type\"",
  "    description = \"Solidity type of the variable.\"",
  "  \x7d",
  "",
  "  property \"visibility\" \x7b",
  "    type    = string",
  "    default = \"internal\"",
  "    one_of  = [\"public\", \"internal\", \"private\"]",
  "  \x7d",
  "",
  "  property \"constant\" \x7b",
  "    type    = bool",
  "    default = false",
  "  \x7d",
  "",
  "  property \"immutable\" \x7b",
  "    type    = bool",
  "    default = false",
  "  \x7d",
  "",
  "  property \"initial\" \x7b",
  "    type        = string",
  "    default     = \"\"",
  "    description = \"Initializer expression, emitted verbatim.\"",
  "  \x7d",
  "",
  "  emit = <<EOT",
  "$\x7btype\x7d $\x7bvisibility\x7d%\x7b if constant \x7d constant%\x7b endif \x7d%\x7b if immutable \x7d immutable%\x7b endif \x7d $\x7bname\x7d%\x7b if initial != \"\" \x7d = $\x7binitial\x7d%\x7b endif \x7d;",
  "EOT",
  "\x7d",
  "",
  "template \"mapping\" \x7b",
  "  category    = \"mapping\"",
  "  description = \"A key/value storage mapping.\"",
  "  cost        = 20000",
  "",
  "  property \"name\" \x7b",
  "    type     = string",
  "    required = true",
  "    check    = \"identifier\"",
  "  \x7d",
  "",
  "  property \"key_type\" \x7b",
  "    type    = string",
  "    default = \"address\"",
  "    check   = \"type\"",
  "  \x7d",
  "",
  "  property \"value_type\" \x7b",
  "    type    = string",
  "    default = \"uint256\"",
  "    check   = \"type\"",
  "  \x7d",
  "",
  "  property \"visibility\" \x7b",
  "    type    = string",
  "    default = \"internal\"",
  "    one_of  = [\"public\", \"internal\", \"private\"]",
  "  \x7d",
  "",
  "  emit = <<EOT",
  "mapping($\x7bkey_type\x7d => $\x7bvalue_type\x7d) $\x7bvisibility\x7d $\x7bname\x7d;",
  "EOT",
  "\x7d",
  "",
  "template \"struct\" \x7b",
  "  category    = \"struct\"",
  "  description = \"A named record type.\"",
  "  cost        = 0",
  "  abi         = \"struct\"",
  "",
  "  property \"name\" \x7b",
  "    type     = string",
  "    required = true",
  "    check    = \"identifier\"",
  "  \x7d",
  "",
  "  property \"fields\" \x7b",
  "    type        = list(string)",
  "    default     = []",
  "    check       = \"fields\"",
  "    description = \"Field declarations such as \\\"address owner\\\".\"",
  "  \x7d",
  "",
  "  emit = <<EOT",
  "struct $\x7bname\x7d \x7b",
  "%\x7b for f in fields ~\x7d",
  "    $\x7bf\x7d;",
  "%\x7b endfor ~\x7d",
  "\x7d",
  "EOT",
  "\x7d",
  "",
  "template \"enum\" \x7b",
  "  category    = \"enum\"",
  "  description = \"A named enumeration.\"",
  "  cost        = 0",
  "  abi         = \"enum\"",
  "",
  "  property \"name\" \x7b",
  "    type     = string",
  "    required = true",
  "    check    = \"identifier\"",
  "  \x7d",
  "",
  "  property \"values\" \x7b",
  "    type     = list(string)",
  "    required = true",
  "    check    = \"identifier\"",
  "  \x7d",
  "",
  "  emit = <<EOT",
  "enum $\x7bname\x7d \x7b $\x7bjoin(\", \", values)\x7d \x7d",
  "EOT",
  "\x7d",
  "",
  "template \"event\" \x7b",
  "  category    = \"event\"",
  "  description = \"A log event.\"",
  "  cost        = 375",
  "  abi         = \"event\"",
  "",
  "  property \"name\" \x7b",
  "    type     = string",
  "    required = true",
  "    check    = \"identifier\"",
  "  \x7d",
  "",
  "  property \"params\" \x7b",
  "    type        = list(string)",
  "    default     = []",
  "    check       = \"params\"",
  "    description = \"Parameters such as \\\"address indexed from\\\".\"",
  "  \x7d",
  "",
  "  emit = <<EOT",
  "event $\x7bname\x7d($\x7bjoin(\", \", params)\x7d);",
  "EOT",
  "\x7d",
  "",
  "template \"modifier\" \x7b",
  "  category    = \"modifier\"",
  "  description = \"A reusable function guard.\"",
  "  cost        = 200",
  "",
  "  property \"name\" \x7b",
  "    type     = string",
  "    required = true",
  "    check    = \"identifier\"",
  "  \x7d",
  "",
  "  property \"params\" \x7b",
  "    type    = list(string)",
  "    default = []",
  "    check   = \"params\"",
  "  \x7d",
  "",
  "  property \"body\" \x7b",
  "    type    = string",
  "    default = \"_;\"",
  "  \x7d",
  "",
  "  emit = <<EOT",
  "modifier $\x7bname\x7d($\x7bjoin(\", \", params)\x7d) \x7b",
  "    $\x7bindent(4, body)\x7d",
  "\x7d",
  "EOT",
  "\x7d",
  "",
  "template \"constructor\" \x7b",
  "  category    = \"constructor\"",
  "  description = \"The contract constructor. At most one per contract. Connected events the body does not emit yet are listed as // emits markers.\"",
  "  cost        = 50000",
  "  abi         = \"constructor\"",
  "",
  "  property \"params\" \x7b",
  "    type    = list(string)",
  "    default = []",
  "    check   = \"params\"",
  "  \x7d",
  "",
  "  property \"payable\" \x7b",
  "    type    = bool",
  "    default = false",
  "  \x7d",
  "",
  "  property \"body\" \x7b",
  "    type    = string",
  "    default = \"\"",
  "  \x7d",
  "",
  "  emit = <<EOT",
  "constructor($\x7bjoin(\", \", params)\x7d)%\x7b if payable \x7d payable%\x7b endif \x7d%\x7b for m in modifiers \x7d $\x7bm\x7d%\x7b endfor \x7d \x7b",
  "%\x7b for e in events ~\x7d",
  "%\x7b if replace(body, \"emit $\x7be\x7d(\", \"\") == body ~\x7d",
  "    // emits $\x7be\x7d",
  "%\x7b endif ~\x7d",
  "%\x7b endfor ~\x7d",
  "%\x7b if body != \"\" ~\x7d",
  "    $\x7bindent(4, body)\x7d",
  "%\x7b endif ~\x7d",
  "\x7d",
  "EOT",
  "\x7d",
  "",
  "template \"function\" \x7b",
  "  category    = \"function\"",
  "  description = \"A contract function. Connected events the body does not emit yet are listed as // emits markers.\"",
  "  cost        = 2100",
  "  abi         = \"function\"",
  "",
  "  property \"name\" \x7b",
  "    type     = string",
  "    required = true",
  "    check    = \"identifier\"",
  "  \x7d",
  "",
  "  property \"params\" \x7b",
  "    type    = list(string)",
  "    default = []",
  "    check   = \"params\"",
  "  \x7d",
  "",
  "  property \"returns\" \x7b",
  "    type    = list(string)",
  "    default = []",
  "    check   = \"params\"",
  "  \x7d",
  "",
  "  property \"visibility\" \x7b",
  "    type    = string",
  "    default = \"public\"",
  "    one_of  = [\"public\", \"external\", \"internal\", \"private\"]",
  "  \x7d",
  "",
  "  property \"mutability\" \x7b",
  "    type    = string",
  "    default = \"\"",
  "    one_of  = [\"\", \"view\", \"pure\", \"payable\"]",
  "  \x7d",
  "",
  "  property \"virtual\" \x7b",
  "    type    = bool",
  "    default = false",
  "  \x7d",
  "",
  "  property \"override\" \x7b",
  "    type    = bool",
  "    default = false",
  "  \x7d",
  "",
  "  property \"body\" \x7b",
  "    type    = string",
  "    default = \"\"",
  "  \x7d",
  "",
  "  emit = <<EOT",
  "function $\x7bname\x7d($\x7bjoin(\", \", params)\x7d) $\x7bvisibility\x7d%\x7b if mutability != \"\" \x7d $\x7bmutability\x7d%\x7b endif \x7d%\x7b if virtual \x7d virtual%\x7b endif \x7d%\x7b if override \x7d override%\x7b endif \x7d%\x7b for m in modifiers \x7d $\x7bm\x7d%\x7b endfor \x7d%\x7b if length(returns) > 0 \x7d returns ($\x7bjoin(\", \", returns)\x7d)%\x7b endif \x7d \x7b",
  "%\x7b for e in events ~\x7d",
  "%\x7b if replace(body, \"emit $\x7be\x7d(\", \"\") == body ~\x7d",
  "    // emits $\x7be\x7d",
  "%\x7b endif ~\x7d",
  "%\x7b endfor ~\x7d",
  "%\x7b if body != \"\" ~\x7d",
  "    $\x7bindent(4, body)\x7d",
  "%\x7b endif ~\x7d",
  "\x7d",
  "EOT",
  "\x7d",
  "",
  "template \"eternal-storage\" \x7b",
  "  category    = \"storage-pattern\"",
  "  description = \"Eternal storage slots keyed by bytes32, one mapping per value type.\"",
  "  cost        = 5000",
  "",
  "  property \"value_types\" \x7b",
  "    type    = list(string)",
  "    default = [\"uint256\", \"address\", \"bool\"]",
  "    check   = \"type\"",
  "  \x7d",
  "",
  "  declares = \x7b",
  "    state = [for t in value_types : \"$\x7bt\x7dStorage\"]",
  "  \x7d",
  "",
  "  emit = <<EOT",
  "%\x7b for t in value_types ~\x7d",
  "mapping(bytes32 => $\x7bt\x7d) internal $\x7bt\x7dStorage;",
  "%\x7b endfor ~\x7d",
  "EOT",
  "\x7d",
  "",
  "template \"batch-transfer\" \x7b",
  "  category    = \"batch-op\"",
  "  description = \"Applies every connected function to each (recipient, amount) pair.\"",
  "  cost        = 3000",
  "",
  "  property \"function_name\" \x7b",
  "    type    = string",
  "    default = \"batchTransfer\"",
  "    check   = \"identifier\"",
  "  \x7d",
  "",
  "  emit = <<EOT",
  "function $\x7bfunction_name\x7d(address[] calldata recipients, uint256[] calldata amounts) external%\x7b for m in modifiers \x7d $\x7bm\x7d%\x7b endfor \x7d \x7b",
  "    require(recipients.length == amounts.length, \"length mismatch\");",
  "    for (uint256 i = 0; i < recipients.length; i++) \x7b",
  "%\x7b for c in calls ~\x7d",
  "        $\x7bc\x7d(recipients[i], amounts[i]);",
  "%\x7b endfor ~\x7d",
  "    \x7d",
  "\x7d",
  "EOT",
  "\x7d"]

/-- Patterns that wrap library contracts. -/
def patternsLines : List String := [
  "# Higher-level patterns. These wrap well-known library contracts and are",
  "# emitted with the functions, after every core declaration.",
  "",
  "template \"erc20-token\" \x7b",
  "  category    = \"token-template\"",
  "  description = \"OpenZeppelin ERC20 token with optional mint and burn.\"",
  "  cost        = 120000",
  "",
  "  property \"token_name\" \x7b",
  "    type     = string",
  "    required = true",
  "  \x7d",
  "",
  "  property \"symbol\" \x7b",
  "    type     = string",
  "    required = true",
  "  \x7d",
  "",
  "  property \"mintable\" \x7b",
  "    type    = bool",
  "    default = false",
  "  \x7d",
  "",
  "  property \"burnable\" \x7b",
  "    type    = bool",
  "    default = false",
  "  \x7d",
  "",
  "  imports = [",
  "    \"@openzeppelin/contracts/token/ERC20/ERC20.sol\",",
  "    burnable ? \"@openzeppelin/contracts/token/ERC20/extensions/ERC20Burnable.sol\" : \"\",",
  "  ]",
  "",
  "  inherits = [",
  "    \"ERC20(\\\"$\x7btoken_name\x7d\\\", \\\"$\x7bsymbol\x7d\\\")\",",
  "    burnable ? \"ERC20Burnable\" : \"\",",
  "  ]",
  "",
  "  declares = \x7b",
  "    function = [mintable ? \"mint\" : \"\"]",
  "  \x7d",
  "",
  "  emit = <<EOT",
  "%\x7b if mintable ~\x7d",
  "function mint(address to, uint256 amount) public%\x7b for m in modifiers \x7d $\x7bm\x7d%\x7b endfor \x7d \x7b",
  "    _mint(to, amount);",
  "\x7d",
  "%\x7b endif ~\x7d",
  "EOT",
  "\x7d",
  "",
  "template \"staking-pool\" \x7b",
  "  category    = \"defi-template\"",
  "  description = \"Single-token staking pool with a fixed reward rate.\"",
  "  cost        = 90000",
  "",
  "  property \"staking_token\" \x7b",
  "    type     = string",
  "    required = true",
  "    check    = \"address\"",
  "  \x7d",
  "",
  "  property \"reward_rate\" \x7b",
  "    type    = string",
  "    default = \"100\"",
  "    check   = \"uint\"",
  "  \x7d",
  "",
  "  imports = [\"@openzeppelin/contracts/token/ERC20/IERC20.sol\"]",
  "",
  "  declares = \x7b",
  "    state    = [\"stakingToken\", \"rewardRate\", \"stakedBalance\"]",
  "    function = [\"stake\", \"withdraw\"]",
  "  \x7d",
  "",
  "  emit = <<EOT",
  "IERC20 public immutable stakingToken = IERC20($\x7bstaking_token\x7d);",
  "uint256 public rewardRate = $\x7breward_rate\x7d;",
  "mapping(address => uint256) public stakedBalance;",
  "",
  "function stake(uint256 amount) external \x7b",
  "    stakedBalance[msg.sender] += amount;",
  "    stakingToken.transferFrom(msg.sender, address(this), amount);",
  "\x7d",
  "",
  "function withdraw(uint256 amount) external \x7b",
  "    stakedBalance[msg.sender] -= amount;",
  "    stakingToken.transfer(msg.sender, amount);",
  "\x7d",
  "EOT",
  "\x7d",
  "",
  "template \"simple-governor\" \x7b",
  "  category    = \"governance-template\"",
  "  description = \"Minimal one-address-one-vote proposal registry.\"",
  "  cost        = 150000",
  "",
  "  property \"voting_period\" \x7b",
  "    type        = string",
  "    default     = \"3 days\"",
  "    description = \"Solidity duration literal.\"",
  "  \x7d",
  "",
  "  declares = \x7b",
  "    state    = [\"Proposal\", \"proposals\", \"votingPeriod\", \"hasVoted\"]",
  "    function = [\"propose\", \"vote\"]",
  "  \x7d",
  "",
  "  emit = <<EOT",
  "struct Proposal \x7b",
  "    string description;",
  "    uint256 votesFor;",
  "    uint256 votesAgainst;",
  "    uint256 deadline;",
  "    bool executed;",
  "\x7d",
  "",
  "Proposal[] public proposals;",
  "uint256 public votingPeriod = $\x7bvoting_period\x7d;",
  "mapping(uint256 => mapping(address => bool)) public hasVoted;",
  "",
  "function propose(string calldata description) external returns (uint256) \x7b",
  "    proposals.push(Proposal(description, 0, 0, block.timestamp + votingPeriod, false));",
  "    return proposals.length - 1;",
  "\x7d",
  "",
  "function vote(uint256 proposalId, bool support) external \x7b",
  "    require(block.timestamp < proposals[proposalId].deadline, \"voting closed\");",
  "    require(!hasVoted[proposalId][msg.sender], \"already voted\");",
  "    hasVoted[proposalId][msg.sender] = true;",
  "    if (support) \x7b",
  "        proposals[proposalId].votesFor += 1;",
  "    \x7d else \x7b",
  "        proposals[proposalId].votesAgainst += 1;",
  "    \x7d",
  "\x7d",
  "EOT",
  "\x7d",
  "",
  "template \"chainlink-price-feed\" \x7b",
  "  category    = \"oracle-template\"",
  "  description = \"Chainlink AggregatorV3 price feed reader.\"",
  "  cost        = 25000",
  "",
  "  property \"feed_name\" \x7b",
  "    type    = string",
  "    default = \"priceFeed\"",
  "    check   = \"identifier\"",
  "  \x7d",
  "",
  "  property \"feed_address\" \x7b",
  "    type     = string",
  "    required = true",
  "    check    = \"address\"",
  "  \x7d",
  "",
  "  property \"getter\" \x7b",
  "    type    = string",
  "    default = \"latestPrice\"",
  "    check   = \"identifier\"",
  "  \x7d",
  "",
  "  imports = [\"@chainlink/contracts/src/v0.8/shared/interfaces/AggregatorV3Interface.sol\"]",
  "",
  "  declares = \x7b",
  "    state    = [feed_name]",
  "    function = [getter]",
  "  \x7d",
  "",
  "  emit = <<EOT",
  "AggregatorV3Interface internal $\x7bfeed_name\x7d = AggregatorV3Interface($\x7bfeed_address\x7d);",
  "",
  "function $\x7bgetter\x7d() public view returns (int256) \x7b",
  "    (, int256 answer, , , ) = $\x7bfeed_name\x7d.latestRoundData();",
  "    return answer;",
  "\x7d",
  "EOT",
  "\x7d",
  "",
  "template \"uups-upgradeable\" \x7b",
  "  category    = \"proxy-template\"",
  "  description = \"UUPS upgradeable contract owned by the initializer.\"",
  "  cost        = 80000",
  "",
  "  imports = [",
  "    \"@openzeppelin/contracts-upgradeable/access/OwnableUpgradeable.sol\",",
  "    \"@openzeppelin/contracts-upgradeable/proxy/utils/Initializable.sol\",",
  "    \"@openzeppelin/contracts-upgradeable/proxy/utils/UUPSUpgradeable.sol\",",
  "  ]",
  "",
  "  inherits = [\"Initializable\", \"OwnableUpgradeable\", \"UUPSUpgradeable\"]",
  "",
  "  declares = \x7b",
  "    function = [\"initialize\", \"_authorizeUpgrade\"]",
  "  \x7d",
  "",
  "  emit = <<EOT",
  "function initialize(address initialOwner) public initializer \x7b",
  "    __Ownable_init(initialOwner);",
  "    __UUPSUpgradeable_init();",
  "\x7d",
  "",
  "function _authorizeUpgrade(address) internal override onlyOwner%\x7b for m in modifiers \x7d $\x7bm\x7d%\x7b endfor \x7d \x7b\x7d",
  "EOT",
  "\x7d",
  "",
  "template \"crosschain-receiver\" \x7b",
  "  category    = \"crosschain-template\"",
  "  description = \"Receives messages relayed from a trusted remote sender.\"",
  "  cost        = 40000",
  "",
  "  property \"trusted_source\" \x7b",
  "    type     = string",
  "    required = true",
  "    check    = \"address\"",
  "  \x7d",
  "",
  "  property \"body\" \x7b",
  "    type    = string",
  "    default = \"\"",
  "  \x7d",
  "",
  "  declares = \x7b",
  "    state    = [\"trustedRemote\"]",
  "    function = [\"receiveMessage\"]",
  "  \x7d",
  "",
  "  emit = <<EOT",
  "address public trustedRemote = $\x7btrusted_source\x7d;",
  "",
  "function receiveMessage(address sender, bytes calldata payload) external%\x7b for m in modifiers \x7d $\x7bm\x7d%\x7b endfor \x7d \x7b",
  "    require(sender == trustedRemote, \"untrusted source\");",
  "%\x7b if body != \"\" ~\x7d",
  "    $\x7bindent(4, body)\x7d",
  "%\x7b endif ~\x7d",
  "\x7d",
  "EOT",
  "\x7d"]

/-- The text of some lines. -/
def textOfLines (lines : List String) : String := String.join (lines.map (· ++ "\n"))

/-- The files of the standard catalog with their names. -/
def standardFiles : List (String × String) := [
  ("data/categories.hcl", textOfLines categoriesLines),
  ("data/connections.hcl", textOfLines connectionsLines),
  ("data/core.hcl", textOfLines coreLines),
  ("data/patterns.hcl", textOfLines patternsLines)]

end SolidityCanvas.Catalog
