/-
What a human message must say to schedule a recurring task.  The conversation
mode is split off first, then quotations are masked, and a small grammar reads
what is left.  Its regular expressions are applied to code units: the classes in
them that hold a surrogate hold all of them.
-/
import Allrice.Regex

namespace Allrice.RecurringTaskIntent

open JsString Regex

inductive ConversationMode
  | newEachRun
  | reuse

inductive Rule
  | every (seconds : Nat)
  | monthly (monthDay : Nat) (time timezone : JsString)
  | weekly (weekdays : List Nat) (time timezone : JsString)
  | daily (time timezone : JsString)

structure Intent where
  rule : Rule
  authoritativeRequest : JsString
  conversationMode : Option ConversationMode

/-- The sign that closes what this one opens. -/
def closing (unit : UInt16) : Option UInt16 :=
  let n := unit.toNat
  if n = 0x201C then some 0x201D
  else if n = 0x2018 then some 0x2019
  else if n = 0x300C then some 0x300D
  else if n = 0x300E then some 0x300F
  else if n = 0x22 ∨ n = 0x27 ∨ n = 0x60 then some unit
  else none

/-- Signs that only close. -/
def isClosing (unit : UInt16) : Bool :=
  let n := unit.toNat
  n == 0x201D || n == 0x2019 || n == 0x300D || n == 0x300F

def isQuote (unit : UInt16) : Bool :=
  (closing unit).isSome || isClosing unit

structure Mask where
  stack : List UInt16
  literalHasText : Bool
  result : JsString

def literalContent : JsString := ofString "字面内容"

def maskUnit (mask : Mask) (unit : UInt16) : Option Mask :=
  if mask.stack.head? = some unit then
    let stack := mask.stack.tail
    if stack = [] then
      if mask.literalHasText then
        some { mask with stack, result := mask.result ++ literalContent }
      else none
    else some { mask with stack }
  else
    match closing unit with
    | some close =>
      some
        { mask with
          literalHasText := mask.literalHasText && !mask.stack.isEmpty
          stack := close :: mask.stack }
    | none =>
      if isClosing unit then none
      else if mask.stack = [] then
        some { mask with result := mask.result ++ [unit] }
      else
        some
          { mask with
            literalHasText := mask.literalHasText || !isWhitespace unit }

def maskQuotedArguments (text : JsString) : Option JsString :=
  match text.foldlM maskUnit ⟨[], false, []⟩ with
  | some mask => if mask.stack = [] then some mask.result else none
  | none => none

def isSeparator (unit : UInt16) : Bool :=
  (ofString "；;。\n").contains unit

def isTail (unit : UInt16) : Bool :=
  (ofString "。！!").contains unit || isWhitespace unit

def modes : List (JsString × ConversationMode) :=
  [(ofString "每次新建聊天", .newEachRun), (ofString "沿用来源聊天", .reuse)]

/-- `text` without `start`, when it begins so. -/
def dropStart (start text : JsString) : Option JsString :=
  if start <+: text then some (text.drop start.length) else none

/-- `\s*(?:请)?(每次新建聊天|沿用来源聊天)[。！!\s]*$`.  What follows the blanks
is none of them, so that they are all passed. -/
def modeAtEnd (text : JsString) : Option ConversationMode :=
  let text := text.dropWhile isWhitespace
  let text := (dropStart (ofString "请") text).getD text
  (modes.find? fun mode =>
    (dropStart mode.1 text).any (·.all isTail)).map Prod.snd

/-- The split is at the last separator behind which the rest matches; the mode
has no quotation signs, so that the test for them never hits. -/
def conversationChoice : JsString → Option (JsString × ConversationMode)
  | [] => none
  | unit :: rest =>
    match conversationChoice rest with
    | some (request, mode) => some (unit :: request, mode)
    | none =>
      if isSeparator unit then
        (modeAtEnd rest).map fun mode => ([], mode)
      else none

def scheduleConversationIntent (text : JsString) :
    JsString × Option ConversationMode :=
  match conversationChoice text with
  | some (request, mode) => (request, some mode)
  | none => (text, none)

def maximumSeconds : Nat := 31536000

def maximumNumber : Nat := maximumSeconds / 60

def chineseDigits : JsString := ofString "零一二三四五六七八九"

def chineseUnit (unit : UInt16) : Option Nat :=
  if [unit] = ofString "十" then some 10
  else if [unit] = ofString "百" then some 100
  else if [unit] = ofString "千" then some 1000
  else none

def secondsPerUnit (unit : JsString) : Nat :=
  if unit = ofString "分钟" then 60
  else if unit = ofString "小时" then 3600
  else 86400

structure Spelling where
  result : JsString
  zero : Bool
  value : Nat

def spellUnit (omitLeadingOne : Bool) (spelling : Spelling) :
    Nat × JsString → Spelling
  | (unit, label) =>
    let digit := spelling.value / unit
    let value := spelling.value % unit
    if digit = 0 then
      { spelling with
        value
        zero := spelling.zero || (spelling.result != [] && value != 0) }
    else
      let result := spelling.result ++
        if spelling.zero then ofString "零" else []
      let result :=
        if omitLeadingOne ∧ result = [] ∧ unit = 10 ∧ digit = 1 then result
        else result ++ (chineseDigits[digit]?).toList
      { result := result ++ label, zero := false, value }

def chineseInteger (value : Nat) (omitLeadingOne : Bool) : JsString :=
  if 10000 ≤ value then
    let rest := value % 10000
    chineseInteger (value / 10000) true ++ ofString "万" ++
      if rest = 0 then []
      else
        (if rest < 1000 then ofString "零" else []) ++
          chineseInteger rest false
  else
    ([(1000, ofString "千"), (100, ofString "百"), (10, ofString "十"),
      (1, [])].foldl (spellUnit omitLeadingOne) ⟨[], false, value⟩).result
termination_by value
decreasing_by all_goals omega

structure Reading where
  total : Nat
  section_ : Nat
  digit : Nat

def readDigit (reading : Reading) (unit : UInt16) : Option Reading :=
  match chineseDigits.findIdx? (· == unit) with
  | some digit => some { reading with digit }
  | none =>
    if [unit] = ofString "万" then
      some ⟨reading.total + (reading.section_ + reading.digit) * 10000, 0, 0⟩
    else
      (chineseUnit unit).map fun value =>
        { reading with
          section_ := reading.section_ +
            (if reading.digit = 0 then 1 else reading.digit) * value
          digit := 0 }

def decimal (digits : JsString) : Nat :=
  digits.foldl (fun value unit => value * 10 + (unit.toNat - 0x30)) 0

def digit : Regex := .one fun unit => 0x30 ≤ unit.toNat && unit.toNat ≤ 0x39

def numeral : Regex :=
  sequence [start, .one fun unit => 0x31 ≤ unit.toNat && unit.toNat ≤ 0x39,
    many digit, stop]

def positiveInteger (literal : JsString) : Option Nat :=
  if numeral.test literal then
    let value := decimal literal
    if value ≤ maximumNumber then some value else none
  else
    let normalized := literal.map fun unit =>
      if [unit] = ofString "两" then 0x4E8C
      else if [unit] = ofString "〇" then 0x96F6
      else unit
    match normalized.foldlM readDigit ⟨0, 0, 0⟩ with
    | none => none
    | some reading =>
      let value := reading.total + reading.section_ + reading.digit
      if 0 < value ∧ value ≤ maximumNumber ∧
          chineseInteger value true = normalized then
        some value
      else none

def numberPattern : Regex := more (among "0123456789零〇一二两三四五六七八九十百千万")

def requestPrefix : Regex :=
  sequence
    [optional (oneOf
      [sequence [literal "请", spaces],
        sequence [literal "麻烦", optional (literal "你"), spaces]]),
      optional (sequence [words ["帮我", "为我"], spaces])]

def comma : Regex := optional (among "，,")

def commaOrColon : Regex := optional (among "，,:：")

/-- `(.+)$` under the flag `s`. -/
def work (number : Nat) : Regex :=
  sequence [.group number (more anything), stop]

def everyRequest : Regex :=
  sequence
    [start, requestPrefix,
      optional (sequence
        [oneOf
          [sequence [literal "从现在", optional (words ["起", "开始"])],
            literal "现在开始"],
          spaces]),
      literal "每", optional (literal "隔"), spaces,
      .group 1 numberPattern, spaces,
      .group 2 (words ["分钟", "小时", "天"]), spaces, commaOrColon, spaces,
      work 3]

def range (first last : UInt16) : Regex :=
  .one fun unit => first.toNat ≤ unit.toNat && unit.toNat ≤ last.toNat

def isLetter (unit : UInt16) : Bool :=
  let n := unit.toNat
  (0x41 ≤ n && n ≤ 0x5A) || (0x61 ≤ n && n ≤ 0x7A)

def zoneUnit : Regex :=
  .one fun unit => isLetter unit || (ofString "_+-").contains unit

def zoneUnitOrDigit : Regex := .either zoneUnit digit

def zonePattern : Regex :=
  oneOf
    [.both (more zoneUnit) (more (.both (literal "/") (more zoneUnitOrDigit))),
      literal "UTC"]

def sixty : Regex := .both (range 0x30 0x35) digit

def clockPattern : Regex :=
  sequence
    [oneOf
      [.both (optional (among "01")) digit,
        .both (literal "2") (range 0x30 0x33)],
      literal ":", sixty, optional (.both (literal ":") sixty)]

/-- `\s*(time)\s*[，,]?\s*(?:时区\s*[:：]?\s*)?(zone)\s*[，,:：]?\s*(.+)$`. -/
def clockZoneWork (first : Nat) : Regex :=
  sequence
    [spaces, .group first clockPattern, spaces, comma, spaces,
      optional (sequence
        [literal "时区", spaces, optional (among ":："), spaces]),
      .group (first + 1) zonePattern, spaces, commaOrColon, spaces,
      work (first + 2)]

def dailyRequest : Regex :=
  sequence [start, requestPrefix, words ["每天", "每日"], clockZoneWork 1]

def weekday : Regex := among "一二三四五六日天"

def weeklyRequest : Regex :=
  sequence
    [start, requestPrefix, literal "每", words ["周", "星期"], spaces,
      .group 1 (.both weekday (many (sequence
        [spaces, among "、,，和及", spaces, optional (words ["周", "星期"]),
          weekday]))),
      spaces, comma, clockZoneWork 2]

def monthlyRequest : Regex :=
  sequence
    [start, requestPrefix, literal "每月", spaces,
      oneOf
        [sequence [.group 1 numberPattern, spaces, words ["日", "号"]],
          words ["末", "最后一天"]],
      spaces, comma, clockZoneWork 2]

def actionPattern : Regex :=
  words
    ["回复", "回答", "提醒", "告诉", "检查", "整理", "生成", "汇总", "查询", "查找", "总结",
      "读取", "列出", "编写", "执行", "完成", "发送", "翻译", "给出", "附上", "使用", "保持",
      "创建", "安排", "预约", "设置", "登记", "启用", "开启", "运行", "调度", "通知", "发消息"]

def otherTime : Regex :=
  oneOf
    [sequence
      [numberPattern, spaces,
        oneOf [literal "秒", .both (literal "分") (optional (literal "钟")),
          words ["小时", "天", "周", "个月", "月", "年"]],
        words ["之后", "以后", "后", "内", "前"]],
      sequence [numberPattern, spaces, literal "次"],
      sequence [times digit 1 1, among ":：", times digit 2 0],
      sequence
        [more (among "0123456789零一二两三四五六七八九十"), spaces, among "点时",
          .either (words ["整", "钟", "回复", "提醒", "执行", "发送"]) stop],
      sequence [times digit 4 0, among "-/年", times digit 1 1]]

def conditionalInstruction : Regex :=
  oneOf
    [words ["如果", "假如", "除非", "倘若", "只要", "只有", "一旦", "即使"],
      .both (words ["假设", "若"]) (among "我你有无已未不没需要能可"),
      sequence [among "才就", optional (literal "再"), actionPattern],
      words ["视情况", "看情况", "有空", "有需要", "必要时"],
      .both (words ["确认", "同意", "批准"]) (words ["之后", "以后", "后"]),
      .both (among "等待") (literal "我")]

def deniedInstruction : Regex :=
  oneOf
    [sequence
      [words ["不要", "不用", "不必", "无需", "不能", "不允许", "不准", "不得", "暂不", "不",
          "别", "勿", "禁止"],
        spaces,
        times (.both (words ["再", "现在", "立即", "马上", "实际", "擅自", "给我", "帮我",
          "为我", "自动", "继续", "你"]) spaces) 0 6,
        actionPattern],
      sequence
        [words ["不想", "不希望", "不需要", "没有要求", "未授权"], spaces,
          many (.both (words ["被", "再", "现在", "立即", "实际", "你", "他", "她", "它",
            "继续", "自动", "周期", "定时", "重复"]) spaces),
          actionPattern],
      sequence
        [.either start
            (words ["请", "并", "然后", "同时", "另外", "再", "且"]),
          spaces, words ["取消", "停止", "暂停", "撤销"],
          .either (words ["任务", "计划", "提醒", "运行", "执行", "调度", "创建", "发送"])
            stop]]

def repeatClock : Regex :=
  optional (.both
    (.either
      (sequence [times digit 1 1, among ":：", times digit 2 0,
        optional (.both (literal ":") (times digit 2 0))])
      (sequence [more (among "零一二两三四五六七八九十"), literal "点",
        optional (words ["整", "钟"])]))
    spaces)

/-- `(?:请)?(?:只|仅)?`, and then an action. -/
def polite : Regex :=
  sequence [optional (literal "请"), optional (among "只仅"), actionPattern]

/-- `(?!\s*的)`. -/
def notOf : Regex := .ahead false (.both spaces (literal "的"))

def nestedSchedule : Regex :=
  oneOf
    [sequence
      [words ["并且", "并", "而且", "同时", "另外", "然后", "再", "以及", "但", "不过"],
        spaces, optional (among "也还再请"), spaces,
        words ["每隔", "每天", "每日", "每晚", "每早", "每周", "每月"]],
      sequence
        [words ["每天", "每日"], spaces,
          words ["早上", "早晨", "上午", "中午", "下午", "傍晚", "晚上", "夜间"], notOf],
      sequence
        [literal "每", optional (literal "隔"), spaces, numberPattern, spaces,
          words ["分钟", "小时", "天", "周", "个月", "月", "年"], notOf],
      sequence
        [literal "每", optional (literal "隔"), spaces, words ["分钟", "小时"],
          spaces, polite],
      sequence
        [oneOf
          [words ["每天", "每日", "每晚", "每早"],
            .both (literal "每周") (optional weekday),
            .both (literal "每月")
              (optional (.both numberPattern (literal "日")))],
          spaces, repeatClock, polite],
      sequence [words ["定期", "循环", "反复", "重复"], spaces, actionPattern],
      sequence
        [words ["创建", "安排", "设置", "登记"], optional (literal "一个"),
          words ["周期", "定时", "重复", "循环"], literal "任务"]]

def aPiece : Regex := optional (.both (literal "一") (among "个段条"))

def exampleScaffolding : Regex :=
  oneOf
    [sequence
      [words ["这是", "此为", "只是", "仅是", "仅作", "仅为", "仅供", "只作", "只供", "作为"],
        aPiece, words ["示例", "例子", "范例", "文档", "教程", "参考", "演示"]],
      sequence [literal "是", aPiece, words ["示例", "例子", "范例"]],
      sequence
        [words ["文档", "教程", "示例"], optional (literal "中"),
          words ["说", "写道", "提到", "规定", "要求"], among ":："]]

def vagueInstruction : Regex :=
  oneOf
    [among "?？",
      words ["长期", "永久", "默认", "偏好", "习惯", "今后", "以后", "大约", "大概", "左右",
        "差不多", "稍后", "待会", "等会", "过会", "尽快", "至少", "至多", "最迟", "最多", "最少",
        "或者", "或是", "还是", "是否", "怎么", "如何", "能否", "可否", "能不能", "可不可以"],
      .both (words ["吗", "么", "呢", "行不行", "好不好"]) stop,
      words ["刚才", "上次", "之前", "此前", "上述", "上面", "同上", "照旧", "照办", "原计划",
        "已确认", "已经确认", "已同意"],
      sequence
        [words ["这个", "那个", "该", "这项", "那项"], optional (literal "的"),
          words ["任务", "工作", "要求", "计划"]],
      words ["今天", "明天", "后天", "今晚", "明早", "周末", "星期", "礼拜", "下周", "本周",
        "下月", "本月", "明年", "开始", "起始", "截至", "截止", "直到", "结束", "终止", "持续",
        "有效期", "生效", "到期", "时区", "当地时间", "本地时间"]]

def scheduleQualifier : Regex :=
  sequence
    [start, requestPrefix, optional (literal "实际"),
      words ["创建", "安排", "设置"], optional (literal "一个"),
      words ["周期", "定时", "重复"], words ["任务", "提醒"], stop]

def notNowQualifier : Regex :=
  sequence
    [start, optional (literal "请"), words ["不要", "别", "无需"],
      words ["现在", "立即", "马上"], literal "执行", stop]

def recurringQualifier (clause : JsString) : Bool :=
  scheduleQualifier.test clause || notNowQualifier.test clause

def dropped : Spot → JsString := fun _ => []

def keptFirst (spot : Spot) : JsString := (spot.captured 1).getD []

def normalizedTaskClause (clause : JsString) : JsString :=
  let clause := (Regex.sequence
    [start, optional (literal "请"),
      words ["然后", "最后", "同时", "并且", "并", "再"], spaces]).replaceStart
        dropped clause
  let clause := (Regex.sequence
    [start, optional (literal "请"), words ["帮我", "为我"],
      spaces]).replaceStart dropped clause
  let clause := (Regex.sequence
    [start, optional (literal "请"),
      oneOf
        [sequence [literal "在", words ["这个", "当前"], words ["对话", "会话"],
          optional (among "中里")],
          .both (literal "在此") (words ["对话", "会话"])],
      spaces]).replaceStart dropped clause
  (Regex.sequence
    [start, .group 1 (optional (literal "请")),
      times (.both (words ["只", "仅", "分别", "逐项", "逐一", "依次"]) spaces) 1 2,
      .ahead true actionPattern]).replaceStart keptFirst clause

/-- `.` without the flag `s`. -/
def dot : Regex :=
  .one fun unit =>
    let n := unit.toNat
    n != 0xA && n != 0xD && n != 0x2028 && n != 0x2029

def taskRequest : Regex :=
  sequence
    [start, optional (literal "请"), optional (among "只仅"),
      .group 1 (words
        ["回复", "回答", "提醒", "告诉", "检查", "整理", "生成", "汇总", "查询", "查找",
          "总结", "读取", "列出", "编写", "执行", "完成", "发送", "翻译", "给出", "附上",
          "使用", "分成", "保持"]),
      .group 2 (more dot), stop]

def emptyObject : Regex :=
  sequence
    [start,
      optional (words ["我", "一下", "我一下", "一下我", "任务", "这个任务"]), stop]

def taskClause (request : JsString) : Bool :=
  match taskRequest.matched request with
  | none => false
  | some captured =>
    let object := (captured 2).getD []
    !(captured 1 == some (ofString "翻译") &&
        !(literal "字面内容").test object) &&
      !emptyObject.test (trim object)

def clauseEnd (unit : UInt16) : Bool :=
  (ofString "。；;！!，,\n.").contains unit

def refused (instruction : JsString) : Bool :=
  conditionalInstruction.test instruction ||
    deniedInstruction.test instruction || nestedSchedule.test instruction ||
    exampleScaffolding.test instruction || vagueInstruction.test instruction ||
    otherTime.test instruction || !taskClause instruction

def explicitWork (text : JsString) : Bool :=
  let clauses := ((text.splitOnP clauseEnd).map trim).filter (· ≠ [])
  let instructions := clauses.filter fun clause => !recurringQualifier clause
  match clauses.head? with
  | none => false
  | some first =>
    !recurringQualifier first &&
      instructions.all fun clause => !refused (normalizedTaskClause clause)

def recurringWork (text : JsString) : Bool :=
  let body := (Regex.sequence
    [start, among "就都", spaces, .ahead true actionPattern]).replaceStart
      dropped text
  let reminder := (Regex.sequence
    [start, optional (literal "请"), literal "提醒", words ["我", "我们"],
      optional (words ["一次", "一下"]), spaces, among "，,", spaces,
      optional (literal "要"), work 1]).matched body
  match reminder with
  | some captured =>
    explicitWork (ofString "提醒我" ++ (captured 1).getD [])
  | none =>
    explicitWork ((Regex.sequence
      [start, .group 1 (.both (literal "提醒") (words ["我", "我们"])),
        words ["一次", "一下"],
        .ahead true (.one fun unit => !isWhitespace unit)]).replaceStart
          keptFirst body)

/-- `/[\u0000-\u0008\u000b\u000c\u000e-\u001f\u007f…]/u`. -/
def isHidden (unit : UInt16) : Bool :=
  let n := unit.toNat
  n ≤ 0x8 || n == 0xB || n == 0xC || (0xE ≤ n && n ≤ 0x1F) || n == 0x7F ||
    (0x200B ≤ n && n ≤ 0x200F) || (0x202A ≤ n && n ≤ 0x202E) ||
    (0x2060 ≤ n && n ≤ 0x206F)

/-- Quoted lines and code. -/
def block : Regex :=
  oneOf
    [.both (.either start (literal "\n"))
      (oneOf
        [.both (many (among " \t")) (literal ">"), literal "    ",
          .both (times (literal " ") 0 3) (literal "\t")]),
      literal "```", literal "~~~"]

/-- The filters on the raw text. -/
def passesFilters (text : JsString) : Bool :=
  trim text != [] && text.length ≤ 32000 && !text.any isHidden &&
    !block.test text

/-- `${hour!.padStart(2, '0')}:${minute}:${second}`. -/
def clockTime (literal : JsString) : JsString :=
  match literal.splitOnP (· == 0x3A) with
  | hour :: minute :: rest =>
    List.replicate (2 - hour.length) 0x30 ++ hour ++ [0x3A] ++ minute ++
      [0x3A] ++ (rest.head?.getD (ofString "00"))
  | _ => []

/-- Where a text first occurs in another. -/
def indexOf (text part : JsString) : Option Nat :=
  (List.range (text.length + 1)).find? fun index =>
    part <+: text.drop index

/-- `'一二三四五六日'.indexOf(…) + 1`. -/
def weekdayNumber (value : JsString) : Nat :=
  let value := (trim value).map fun unit =>
    if [unit] = ofString "天" then 0x65E5 else unit
  match indexOf (ofString "一二三四五六日") value with
  | some index => index + 1
  | none => 0

def isListSign (unit : UInt16) : Bool := (ofString "、,，和及").contains unit

/-- `text.replaceAll('星期', '').replaceAll('周', '')`. -/
def dropWeek : JsString → JsString
  | 0x661F :: 0x671F :: rest => dropWeek rest
  | unit :: rest =>
    if unit.toNat = 0x5468 then dropWeek rest else unit :: dropWeek rest
  | [] => []

def weekdaysOf (literal : JsString) : List Nat :=
  (((dropWeek literal).splitOnP isListSign).map weekdayNumber).mergeSort
    (· ≤ ·)

section

-- The time zones that `Intl.DateTimeFormat` knows.
variable (knownZone : JsString → Bool)

/-- The rule of a prose, none if it is refused. -/
def ruleOf (prose : JsString) : Option Rule :=
  match everyRequest.matched prose with
  | some captured =>
    let seconds := match (captured 1).bind positiveInteger with
      | none => 0
      | some number => number * secondsPerUnit ((captured 2).getD [])
    if 60 ≤ seconds ∧ seconds ≤ maximumSeconds ∧
        recurringWork ((captured 3).getD []) then
      some (.every seconds)
    else none
  | none =>
  match monthlyRequest.matched prose with
  | some captured =>
    let monthDay := match captured 1 with
      | some literal => (positiveInteger literal).getD 0
      | none => 31
    let timezone := (captured 3).getD []
    if monthDay = 0 ∨ 31 < monthDay ∨
        explicitWork ((captured 4).getD []) = false ∨
        knownZone timezone = false then none
    else
      some (.monthly monthDay (clockTime ((captured 2).getD [])) timezone)
  | none =>
  match weeklyRequest.matched prose with
  | some captured =>
    let weekdays := weekdaysOf ((captured 1).getD [])
    let timezone := (captured 3).getD []
    if explicitWork ((captured 4).getD []) = false ∨
        weekdays.any (· < 1) ∨ ¬ weekdays.Nodup ∨
        knownZone timezone = false then none
    else some (.weekly weekdays (clockTime ((captured 2).getD [])) timezone)
  | none =>
  match dailyRequest.matched prose with
  | some captured =>
    let timezone := (captured 2).getD []
    if explicitWork ((captured 3).getD []) = false ∨
        knownZone timezone = false then none
    else some (.daily (clockTime ((captured 1).getD [])) timezone)
  | none => none

def explicitRecurringTaskIntent (text : JsString) : Option Intent :=
  if passesFilters text = false then none
  else
    let selection := scheduleConversationIntent text
    match (maskQuotedArguments selection.1).map trim with
    | none => none
    | some prose =>
      if prose = [] then none
      else
        (ruleOf knownZone prose).map fun rule =>
          { rule
            authoritativeRequest := text
            conversationMode := selection.2 }

end

end Allrice.RecurringTaskIntent
