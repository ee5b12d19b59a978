import PrgScript.Text.CharSet

/-!
# Composite characters

The canonical decompositions of Unicode 15, Hangul syllables apart, and the canonical
combining classes. A composite is listed with the two characters it stands for; the
ones under `excludedComposites` are taken apart but never put together. Of the
compatible forms only the number of marks at their ends is kept.
-/

namespace PrgScript.Text

/-- Marks with what they join: the composites of a mark, each before the character that it adds the
mark to. -/
def marked : List (Nat × String) := [
  (0x300, "ÀAÈEÌIÒOÙUàaèeìiòoùuǛÜǜüǸNǹnЀЕЍИѐеѝиḔĒḕēṐŌṑōẀWẁwẦÂầâẰĂằăỀÊềêỒÔồôỜƠờơỪƯừưỲYỳyἂἀἃἁ"),
  (0x300, "ἊἈἋἉἒἐἓἑἚἘἛἙἢἠἣἡἪἨἫἩἲἰἳἱἺἸἻἹὂὀὃὁὊὈὋὉὒὐὓὑὛὙὢὠὣὡὪὨὫὩὰαὲεὴηὶιὸοὺυὼωᾺΑῈΕῊΗ῍᾿ῒϊῚΙ῝῾ῢϋ"),
  (0x300, "ῪΥ῭¨ῸΟῺΩ"),
  (0x301, "ÁAÉEÍIÓOÚUÝYáaéeíióoúuýyĆCćcĹLĺlŃNńnŔRŕrŚSśsŹZźzǗÜǘüǴGǵgǺÅǻåǼÆǽæǾØǿø΅¨ΆΑΈΕΉΗΊΙΌΟ"),
  (0x301, "ΎΥΏΩΐϊάαέεήηίιΰϋόούυώωϓϒЃГЌКѓгќкḈÇḉçḖĒḗēḮÏḯïḰKḱkḾMḿmṌÕṍõṒŌṓōṔPṕpṸŨṹũẂWẃwẤÂấâẮĂắă"),
  (0x301, "ẾÊếêỐÔốôỚƠớơỨƯứưἄἀἅἁἌἈἍἉἔἐἕἑἜἘἝἙἤἠἥἡἬἨἭἩἴἰἵἱἼἸἽἹὄὀὅὁὌὈὍὉὔὐὕὑὝὙὤὠὥὡὬὨὭὩ῎᾿῞῾"),
  (0x302, "ÂAÊEÎIÔOÛUâaêeîiôoûuĈCĉcĜGĝgĤHĥhĴJĵjŜSŝsŴWŵwŶYŷyẐZẑzẬẠậạỆẸệẹỘỌộọ"),
  (0x303, "ÃAÑNÕOãañnõoĨIĩiŨUũuṼVṽvẪÂẫâẴĂẵăẼEẽeỄÊễêỖÔỗôỠƠỡơỮƯữưỸYỹy"),
  (0x304, "ĀAāaĒEēeĪIīiŌOōoŪUūuǕÜǖüǞÄǟäǠȦǡȧǢÆǣæǬǪǭǫȪÖȫöȬÕȭõȰȮȱȯȲYȳyӢИӣиӮУӯуḠGḡgḸḶḹḷṜṚṝṛᾱαᾹΑ"),
  (0x304, "ῑιῙΙῡυῩΥ"), (0x306, "ĂAăaĔEĕeĞGğgĬIĭiŎOŏoŬUŭuЎУЙИйиўуӁЖӂжӐАӑаӖЕӗеḜȨḝȩẶẠặạᾰαᾸΑῐιῘΙῠυῨΥ"),
  (0x307, "ĊCċcĖEėeĠGġgİIŻZżzȦAȧaȮOȯoḂBḃbḊDḋdḞFḟfḢHḣhṀMṁmṄNṅnṖPṗpṘRṙrṠSṡsṤŚṥśṦŠṧšṨṢṩṣṪTṫtẆW"),
  (0x307, "ẇwẊXẋxẎYẏyẛſ"),
  (0x308, "ÄAËEÏIÖOÜUäaëeïiöoüuÿyŸYΪΙΫΥϊιϋυϔϒЁЕЇІёеїіӒАӓаӚӘӛәӜЖӝжӞЗӟзӤИӥиӦОӧоӪӨӫөӬЭӭэӰУӱуӴЧ"),
  (0x308, "ӵчӸЫӹыḦHḧhṎÕṏõṺŪṻūẄWẅwẌXẍxẗt"),
  (0x309, "ẢAảaẨÂẩâẲĂẳăẺEẻeỂÊểêỈIỉiỎOỏoỔÔổôỞƠởơỦUủuỬƯửưỶYỷy"), (0x30A, "ÅAåaŮUůuẘwẙy"),
  (0x30B, "ŐOőoŰUűuӲУӳу"),
  (0x30C, "ČCčcĎDďdĚEěeĽLľlŇNňnŘRřrŠSšsŤTťtŽZžzǍAǎaǏIǐiǑOǒoǓUǔuǙÜǚüǦGǧgǨKǩkǮƷǯʒǰjȞHȟh"),
  (0x30F, "ȀAȁaȄEȅeȈIȉiȌOȍoȐRȑrȔUȕuѶѴѷѵ"), (0x311, "ȂAȃaȆEȇeȊIȋiȎOȏoȒRȓrȖUȗu"),
  (0x313, "ἀαἈΑἐεἘΕἠηἨΗἰιἸΙὀοὈΟὐυὠωὨΩῤρ"), (0x314, "ἁαἉΑἑεἙΕἡηἩΗἱιἹΙὁοὉΟὑυὙΥὡωὩΩῥρῬΡ"),
  (0x31B, "ƠOơoƯUưu"),
  (0x323, "ḄBḅbḌDḍdḤHḥhḲKḳkḶLḷlṂMṃmṆNṇnṚRṛrṢSṣsṬTṭtṾVṿvẈWẉwẒZẓzẠAạaẸEẹeỊIịiỌOọoỢƠợơỤUụuỰƯựư"),
  (0x323, "ỴYỵy"), (0x324, "ṲUṳu"), (0x325, "ḀAḁa"), (0x326, "ȘSșsȚTțt"),
  (0x327, "ÇCçcĢGģgĶKķkĻLļlŅNņnŖRŗrŞSşsŢTţtȨEȩeḐDḑdḨHḩh"), (0x328, "ĄAąaĘEęeĮIįiŲUųuǪOǫo"),
  (0x32D, "ḒDḓdḘEḙeḼLḽlṊNṋnṰTṱtṶUṷu"), (0x32E, "ḪHḫh"), (0x330, "ḚEḛeḬIḭiṴUṵu"),
  (0x331, "ḆBḇbḎDḏdḴKḵkḺLḻlṈNṉnṞRṟrṮTṯtẔZẕzẖh"),
  (0x338, "↚←↛→↮↔⇍⇐⇎⇔⇏⇒∄∃∉∈∌∋∤∣∦∥≁∼≄≃≇≅≉≈≠=≢≡≭≍≮<≯>≰≤≱≥≴≲≵≳≸≶≹≷⊀≺⊁≻⊄⊂⊅⊃⊈⊆⊉⊇⊬⊢⊭⊨⊮⊩⊯⊫⋠≼⋡≽⋢⊑⋣⊒"),
  (0x338, "⋪⊲⋫⊳⋬⊴⋭⊵"), (0x342, "ἆἀἇἁἎἈἏἉἦἠἧἡἮἨἯἩἶἰἷἱἾἸἿἹὖὐὗὑὟὙὦὠὧὡὮὨὯὩᾶα῁¨ῆη῏᾿ῖιῗϊ῟῾ῦυῧϋῶω"),
  (0x345, "ᾀἀᾁἁᾂἂᾃἃᾄἄᾅἅᾆἆᾇἇᾈἈᾉἉᾊἊᾋἋᾌἌᾍἍᾎἎᾏἏᾐἠᾑἡᾒἢᾓἣᾔἤᾕἥᾖἦᾗἧᾘἨᾙἩᾚἪᾛἫᾜἬᾝἭᾞἮᾟἯᾠὠᾡὡᾢὢᾣὣᾤὤᾥὥᾦὦᾧὧ"),
  (0x345, "ᾨὨᾩὩᾪὪᾫὫᾬὬᾭὭᾮὮᾯὯᾲὰᾳαᾴάᾷᾶᾼΑῂὴῃηῄήῇῆῌΗῲὼῳωῴώῷῶῼΩ"), (0x93C, "ऩनऱरऴळ"), (0xBD7, "ஔஒ"),
  (0x102E, "ဦဥ"), (0x1B35, "ᬆᬅᬈᬇᬊᬉᬌᬋᬎᬍᬒᬑ"),
  (0x3099, "がかぎきぐくげけごこざさじしずすぜせぞそだたぢちづつでてどとばはびひぶふべへぼほゔうゞゝガカギキグクゲケゴコザサジシズスゼセゾソダタヂチヅツデテドトバハビヒブフ"),
  (0x3099, "ベヘボホヴウヷワヸヰヹヱヺヲヾヽ"), (0x309A, "ぱはぴひぷふぺへぽほパハピヒプフペヘポホ")]

def inPairs : List Nat → List (Nat × Nat)
  | first :: second :: rest => (first, second) :: inPairs rest
  | _ => []

/-- Composites with their first and second character. -/
def composites : List (Nat × Nat × Nat) := [
  (0x622, 0x627, 0x653), (0x623, 0x627, 0x654), (0x624, 0x648, 0x654), (0x625, 0x627, 0x655),
  (0x626, 0x64A, 0x654), (0x6C0, 0x6D5, 0x654), (0x6C2, 0x6C1, 0x654), (0x6D3, 0x6D2, 0x654),
  (0x9CB, 0x9C7, 0x9BE), (0x9CC, 0x9C7, 0x9D7), (0xB48, 0xB47, 0xB56), (0xB4B, 0xB47, 0xB3E),
  (0xB4C, 0xB47, 0xB57), (0xBCA, 0xBC6, 0xBBE), (0xBCB, 0xBC7, 0xBBE), (0xBCC, 0xBC6, 0xBD7),
  (0xC48, 0xC46, 0xC56), (0xCC0, 0xCBF, 0xCD5), (0xCC7, 0xCC6, 0xCD5), (0xCC8, 0xCC6, 0xCD6),
  (0xCCA, 0xCC6, 0xCC2), (0xCCB, 0xCCA, 0xCD5), (0xD4A, 0xD46, 0xD3E), (0xD4B, 0xD47, 0xD3E),
  (0xD4C, 0xD46, 0xD57), (0xDDA, 0xDD9, 0xDCA), (0xDDC, 0xDD9, 0xDCF), (0xDDD, 0xDDC, 0xDCA),
  (0xDDE, 0xDD9, 0xDDF), (0x1B3B, 0x1B3A, 0x1B35), (0x1B3D, 0x1B3C, 0x1B35),
  (0x1B40, 0x1B3E, 0x1B35), (0x1B41, 0x1B3F, 0x1B35), (0x1B43, 0x1B42, 0x1B35),
  (0x1109A, 0x11099, 0x110BA), (0x1109C, 0x1109B, 0x110BA), (0x110AB, 0x110A5, 0x110BA),
  (0x1112E, 0x11131, 0x11127), (0x1112F, 0x11132, 0x11127), (0x1134B, 0x11347, 0x1133E),
  (0x1134C, 0x11347, 0x11357), (0x114BB, 0x114B9, 0x114BA), (0x114BC, 0x114B9, 0x114B0),
  (0x114BE, 0x114B9, 0x114BD), (0x115BA, 0x115B8, 0x115AF), (0x115BB, 0x115B9, 0x115AF),
  (0x11938, 0x11935, 0x11930)] ++
  marked.flatMap fun (mark, text) =>
    (inPairs (text.toList.map Char.toNat)).map fun (composite, first) => (composite, first, mark)

/-- Composites that are never put together, with their first and second character. -/
def excludedComposites : List (Nat × Nat × Nat) := [
  (0x344, 0x308, 0x301), (0x958, 0x915, 0x93C), (0x959, 0x916, 0x93C), (0x95A, 0x917, 0x93C),
  (0x95B, 0x91C, 0x93C), (0x95C, 0x921, 0x93C), (0x95D, 0x922, 0x93C), (0x95E, 0x92B, 0x93C),
  (0x95F, 0x92F, 0x93C), (0x9DC, 0x9A1, 0x9BC), (0x9DD, 0x9A2, 0x9BC), (0x9DF, 0x9AF, 0x9BC),
  (0xA33, 0xA32, 0xA3C), (0xA36, 0xA38, 0xA3C), (0xA59, 0xA16, 0xA3C), (0xA5A, 0xA17, 0xA3C),
  (0xA5B, 0xA1C, 0xA3C), (0xA5E, 0xA2B, 0xA3C), (0xB5C, 0xB21, 0xB3C), (0xB5D, 0xB22, 0xB3C),
  (0xF43, 0xF42, 0xFB7), (0xF4D, 0xF4C, 0xFB7), (0xF52, 0xF51, 0xFB7), (0xF57, 0xF56, 0xFB7),
  (0xF5C, 0xF5B, 0xFB7), (0xF69, 0xF40, 0xFB5), (0xF73, 0xF71, 0xF72), (0xF75, 0xF71, 0xF74),
  (0xF76, 0xFB2, 0xF80), (0xF78, 0xFB3, 0xF80), (0xF81, 0xF71, 0xF80), (0xF93, 0xF92, 0xFB7),
  (0xF9D, 0xF9C, 0xFB7), (0xFA2, 0xFA1, 0xFB7), (0xFA7, 0xFA6, 0xFB7), (0xFAC, 0xFAB, 0xFB7),
  (0xFB9, 0xF90, 0xFB5), (0x2ADC, 0x2ADD, 0x338), (0xFB1D, 0x5D9, 0x5B4), (0xFB1F, 0x5F2, 0x5B7),
  (0xFB2A, 0x5E9, 0x5C1), (0xFB2B, 0x5E9, 0x5C2), (0xFB2C, 0xFB49, 0x5C1),
  (0xFB2D, 0xFB49, 0x5C2), (0xFB2E, 0x5D0, 0x5B7), (0xFB2F, 0x5D0, 0x5B8), (0xFB30, 0x5D0, 0x5BC),
  (0xFB31, 0x5D1, 0x5BC), (0xFB32, 0x5D2, 0x5BC), (0xFB33, 0x5D3, 0x5BC), (0xFB34, 0x5D4, 0x5BC),
  (0xFB35, 0x5D5, 0x5BC), (0xFB36, 0x5D6, 0x5BC), (0xFB38, 0x5D8, 0x5BC), (0xFB39, 0x5D9, 0x5BC),
  (0xFB3A, 0x5DA, 0x5BC), (0xFB3B, 0x5DB, 0x5BC), (0xFB3C, 0x5DC, 0x5BC), (0xFB3E, 0x5DE, 0x5BC),
  (0xFB40, 0x5E0, 0x5BC), (0xFB41, 0x5E1, 0x5BC), (0xFB43, 0x5E3, 0x5BC), (0xFB44, 0x5E4, 0x5BC),
  (0xFB46, 0x5E6, 0x5BC), (0xFB47, 0x5E7, 0x5BC), (0xFB48, 0x5E8, 0x5BC), (0xFB49, 0x5E9, 0x5BC),
  (0xFB4A, 0x5EA, 0x5BC), (0xFB4B, 0x5D5, 0x5B9), (0xFB4C, 0x5D1, 0x5BF), (0xFB4D, 0x5DB, 0x5BF),
  (0xFB4E, 0x5E4, 0x5BF), (0x1D15E, 0x1D157, 0x1D165), (0x1D15F, 0x1D158, 0x1D165),
  (0x1D160, 0x1D15F, 0x1D16E), (0x1D161, 0x1D15F, 0x1D16F), (0x1D162, 0x1D15F, 0x1D170),
  (0x1D163, 0x1D15F, 0x1D171), (0x1D164, 0x1D15F, 0x1D172), (0x1D1BB, 0x1D1B9, 0x1D165),
  (0x1D1BC, 0x1D1BA, 0x1D165), (0x1D1BD, 0x1D1BB, 0x1D16E), (0x1D1BE, 0x1D1BC, 0x1D16E),
  (0x1D1BF, 0x1D1BB, 0x1D16F), (0x1D1C0, 0x1D1BC, 0x1D16F)]

/-- Runs of ideographs, from a code point on, that stand for other ideographs. -/
def ideographRuns : List (Nat × String) := [
  (0xF900, "豈更車賈滑串句龜龜契金喇奈懶癩羅蘿螺裸邏樂洛烙珞落酪駱亂卵欄爛蘭鸞嵐濫藍襤拉臘蠟廊朗浪狼郎來冷勞擄櫓爐盧老蘆虜路露魯鷺碌祿綠菉錄鹿論壟弄籠聾牢磊賂雷壘屢樓淚漏累"),
  (0xF950, "縷陋勒肋凜凌稜綾菱陵讀拏樂諾丹寧怒率異北磻便復不泌數索參塞省葉說殺辰沈拾若掠略亮兩凉梁糧良諒量勵呂女廬旅濾礪閭驪麗黎力曆歷轢年憐戀撚漣煉璉秊練聯輦蓮連鍊列劣咽烈"),
  (0xF9A0, "裂說廉念捻殮簾獵令囹寧嶺怜玲瑩羚聆鈴零靈領例禮醴隸惡了僚寮尿料樂燎療蓼遼龍暈阮劉杻柳流溜琉留硫紐類六戮陸倫崙淪輪律慄栗率隆利吏履易李梨泥理痢罹裏裡里離匿溺吝燐璘"),
  (0xF9F0, "藺隣鱗麟林淋臨立笠粒狀炙識什茶刺切度拓糖宅洞暴輻行降見廓兀嗀"), (0xFA10, "塚"), (0xFA12, "晴"), (0xFA15, "凞猪益礼神祥福靖精羽"),
  (0xFA20, "蘒"), (0xFA22, "諸"), (0xFA25, "逸都"),
  (0xFA2A, "飯飼館鶴郞隷侮僧免勉勤卑喝嘆器塀墨層屮悔慨憎懲敏既暑梅海渚漢煮爫琢碑社祉祈祐祖祝禍禎穀突節練縉繁署者臭艹艹著褐視謁謹賓贈辶逸難響頻恵𤋮舘"),
  (0xFA70, "並况全侀充冀勇勺喝啕喙嗢塚墳奄奔婢嬨廒廙彩徭惘慎愈憎慠懲戴揄搜摒敖晴朗望杖歹殺流滛滋漢瀞煮瞧爵犯猪瑱甆画瘝瘟益盛直睊着磌窱節类絛練缾者荒華蝹襁覆視調諸請謁諾諭謹"),
  (0xFAC0, "變贈輸遲醙鉶陼難靖韛響頋頻鬒龜𢡊𢡄𣏕㮝䀘䀹𥉉𥳐𧻓齃龎"),
  (0x2F800, "丽丸乁𠄢你侮侻倂偺備僧像㒞𠘺免兔兤具𠔜㒹內再𠕋冗冤仌冬况𩇟凵刃㓟刻剆割剷㔕勇勉勤勺包匆北卉卑博即卽卿卿卿𠨬灰及叟𠭣叫叱吆咞吸呈周咢哶唐啓啣善善喙喫喳嗂圖嘆圗噑噴"),
  (0x2F850, "切壮城埴堍型堲報墬𡓤売壷夆多夢奢𡚨𡛪姬娛娧姘婦㛮㛼嬈嬾嬾𡧈寃寘寧寳𡬘寿将当尢㞁屠屮峀岍𡷤嵃𡷦嵮嵫嵼巡巢㠯巽帨帽幩㡢𢆃㡼庰庳庶廊𪎒廾𢌱𢌱舁弢弢㣇𣊸𦇚形彫㣣徚忍志忹"),
  (0x2F8A0, "悁㤺㤜悔𢛔惇慈慌慎慌慺憎憲憤憯懞懲懶成戛扝抱拔捐𢬌挽拼捨掃揤𢯱搢揅掩㨮摩摾撝摷㩬敏敬𣀊旣書晉㬙暑㬈㫤冒冕最暜肭䏙朗望朡杞杓𣏃㭉柺枅桒梅𣑭梎栟椔㮝楂榣槪檨𣚣櫛㰘次"),
  (0x2F8F0, "𣢧歔㱎歲殟殺殻𣪍𡴋𣫺汎𣲼沿泍汧洖派海流浩浸涅𣴞洴港湮㴳滋滇𣻑淹潮𣽞𣾎濆瀹瀞瀛㶖灊災灷炭𠔥煅𤉣熜𤎫爨爵牐𤘈犀犕𤜵𤠔獺王㺬玥㺸㺸瑇瑜瑱璅瓊㼛甤𤰶甾𤲒異𢆟瘐𤾡𤾸𥁄㿼䀈"),
  (0x2F940, "直𥃳𥃲𥄙𥄳眞真真睊䀹瞋䁆䂖𥐝硎碌磌䃣𥘦祖𥚚𥛅福秫䄯穀穊穏𥥼𥪧𥪧竮䈂𥮫篆築䈧𥲀糒䊠糨糣紀𥾆絣䌁緇縂繅䌴𦈨𦉇䍙𦋙罺𦌾羕翺者𦓚𦔣聠𦖨聰𣍟䏕育脃䐋脾媵𦞧𦞵𣎓𣎜舁舄辞䑫芑"),
  (0x2F990, "芋芝劳花芳芽苦𦬼若茝荣莭茣莽菧著荓菊菌菜𦰶𦵫𦳕䔫蓱蓳蔖𧏊蕤𦼬䕝䕡𦾱𧃒䕫虐虜虧虩蚩蚈蜎蛢蝹蜨蝫螆䗗蟡蠁䗹衠衣𧙧裗裞䘵裺㒻𧢮𧥦䚾䛇誠諭變豕𧲨貫賁贛起𧼯𠠄跋趼跰𠣞軔輸"),
  (0x2F9E0, "𨗒𨗭邔郱鄑𨜮鄛鈸鋗鋘鉼鏹鐕𨯺開䦕閷𨵷䧦雃嶲霣𩅅𩈚䩮䩶韠𩐊䪲𩒖頋頋頩𩖶飢䬳餩馧駂駾䯎𩬰鬒鱀鳽䳎䳭鵧𪃎䳸𪄅𪈎𪊑麻䵖黹黾鼅鼏鼖鼻𪘀")]

/-- Characters that stand for a single other character. -/
def singletons : List (Nat × Nat) := [
  (0x340, 0x300), (0x341, 0x301), (0x343, 0x313), (0x374, 0x2B9), (0x37E, 0x3B), (0x387, 0xB7),
  (0x1F71, 0x3AC), (0x1F73, 0x3AD), (0x1F75, 0x3AE), (0x1F77, 0x3AF), (0x1F79, 0x3CC),
  (0x1F7B, 0x3CD), (0x1F7D, 0x3CE), (0x1FBB, 0x386), (0x1FBE, 0x3B9), (0x1FC9, 0x388),
  (0x1FCB, 0x389), (0x1FD3, 0x390), (0x1FDB, 0x38A), (0x1FE3, 0x3B0), (0x1FEB, 0x38E),
  (0x1FEE, 0x385), (0x1FEF, 0x60), (0x1FF9, 0x38C), (0x1FFB, 0x38F), (0x1FFD, 0xB4),
  (0x2000, 0x2002), (0x2001, 0x2003), (0x2126, 0x3A9), (0x212A, 0x4B), (0x212B, 0xC5),
  (0x2329, 0x3008), (0x232A, 0x3009)] ++
  ideographRuns.flatMap fun (first, text) => text.toList.mapIdx fun i c => (first + i, c.toNat)

/-- The combining classes, each with the characters that have it. -/
def combiningSets : List (Nat × CharSet) := [
  (1,[820,5,6555,1,13,7,1001,2,4,3,10,2,3,2,59725,1,24758,5,20905,1,5320,3]),(6,[94192,2]),(7,[2364,
  1,127,1,127,1,127,1,127,1,255,1,127,1,890,1,2812,1,177,1,80,1,36219,1,26374,1,184,1,86,1,107,1,
  178,1,81,2,265,1,124,1,252,1,246,1,386,1,264,1,1022,1,52231,1]),(8,[12441,2]),(9,[2381,1,127,1,
  127,1,127,1,127,1,127,1,127,1,127,1,109,2,16,1,124,1,111,1,127,1,201,1,180,2,1753,2,30,1,157,1,
  653,1,227,1,101,2,70,2,4491,1,31366,1,37,1,151,1,142,1,108,1,309,1,246,1,24145,1,1542,1,41,1,14,1,
  57,1,121,2,139,1,116,1,180,1,98,1,244,1,127,1,252,1,127,1,118,1,116,1,269,1,259,2,161,1,83,1,18,1,
  81,1,421,1,260,2,81,1,425,2]),(10,[1456,1]),(11,[1457,1]),(12,[1458,1]),(13,[1459,1]),(14,[1460,
  1]),(15,[1461,1]),(16,[1462,1]),(17,[1463,1]),(18,[1464,1,14,1]),(19,[1465,2]),(20,[1467,1]),(21,
  [1468,1]),(22,[1469,1]),(23,[1471,1]),(24,[1473,1]),(25,[1474,1]),(26,[64286,1]),(27,[1611,1,676,
  1]),(28,[1612,1,676,1]),(29,[1613,1,676,1]),(30,[1560,1,53,1]),(31,[1561,1,53,1]),(32,[1562,1,53,
  1]),(33,[1617,1]),(34,[1618,1]),(35,[1648,1]),(36,[1809,1]),(84,[3157,1]),(91,[3158,1]),(103,
  [3640,2]),(107,[3656,4]),(118,[3768,2]),(122,[3784,4]),(129,[3953,1]),(130,[3954,1,7,4,2,1]),(132,
  [3956,1]),(202,[801,2,4,2,6823,1]),(214,[7630,1]),(216,[795,1,3101,1,115243,2,7,5]),(218,[7674,1,
  4655,1]),(220,[790,4,2,5,2,4,2,11,5,4,10,3,3,2,4,4,2,2,566,1,4,1,4,1,6,6,2,1,26,1,143,2,5,1,2,1,
  131,1,6,1,2,1,67,1,2,1,2,3,1,2,1,1,3,1,1,1,1,1,1,1,169,1,10,1,91,3,61,3,51,5,15,1,2,1,2,1,3,3,6,1,
  2,2,87,1,1477,2,27,1,1,1,142,1,198,1,2221,1,220,1,102,1,53,6,2,1,1,2,2,2,5,1,161,1,360,5,2,4,13,1,
  212,1,7,1,4,1,41,1,3,1,1,1,744,1,3,4,34875,3,390,1,21362,7,975,1,226,1,1836,1,44,1,171,1,1046,3,
  70,2,3,1,1,4,50,1,1,1,49653,8,7,2,4962,1,993,7]),(222,[1434,1,18,1,5003,1,5875,1]),(224,[12334,
  2]),(226,[119149,1]),(228,[1454,1,4858,1,1357,2,4658,1]),(230,[768,21,40,8,1,1,3,3,3,3,4,1,3,1,7,
  13,275,5,266,4,1,3,2,6,6,2,1,2,2,1,20,1,75,8,59,2,2,5,1,2,119,7,2,4,1,1,2,2,2,2,67,1,1,2,1,2,3,1,
  2,1,1,3,1,1,1,1,1,1,1,2,160,7,1,1,34,4,1,9,1,3,1,5,106,1,3,4,42,5,5,14,2,2,1,2,1,3,6,3,1,2,2,5,81,
  1,1,2,169,1,1411,2,2,2,981,3,1149,1,348,1,220,1,93,8,51,5,6,2,4,2,2,5,1,4,156,1,1,7,348,3,7,2,4,1,
  19,1,3,2,198,2,1,7,1,2,4,37,5,1,2,1,721,2,2,4,3,2,4,1,5,1,1,1,6,1,3070,3,238,32,30831,1,4,10,32,2,
  80,2,494,18,446,1,1,2,3,2,5,2,1,1,21342,7,7,2,1350,5,1684,1,40,1,172,1,574,4,387,2,155,3,1,1,53,1,
  1,1,379,3,611,7,3,5,233,1,22225,7,26190,5,32,4,148,3,3515,7,1,17,2,7,1,2,1,5,100,1,160,7,375,1,61,
  4,511,1,1108,6]),(232,[789,1,4,1,61,1,6813,1,4661,1,111807,2]),(233,[860,1,2,1,2,1,6809,1]),(234,
  [861,2,1,2,6763,1]),(240,[837,1])]

/-- Characters, none of them a mark or a composite, whose compatible form ends in marks, by the
number of those marks. -/
def trailingSets : List (Nat × CharSet) := [
  (1,[168,1,6,1,4,1,3,1,267,3,273,6,156,1,9,1,7224,1,1,2,61,1,24,1,38,1,4188,2,150,1,1,2,3,6,15,21,
  266,17,133,1,2,1,8,1,13,1,2,1,16,1,8,1,4,1,10,1,2,1,51285,2,10,2,169,3,50,1,72,1,98,2,267,4,35,3,
  1,1,1,10,1,12,104,6,163,2,3,1,1,2,3,6,18,6,2,6,2,6,2,3,6,1,61999,1]),(2,[3959,1,1,1,60644,6,142,
  3])]

/-- The characters that are no marks and whose compatible form is one mark. -/
def disguisedSet : CharSet := [
  12595,1,1,2,3,6,15,21,52794,2,3,1,1,2,3,6,18,6,2,6,2,6,2,3]

end PrgScript.Text
